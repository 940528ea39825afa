/-
  ServiceRegistry.Net.Ip

  Addresses of hosts and their texts. Four decimal numbers without leading zeros, or
  eight groups of up to four hexadecimal digits of which one run of zeros may be written
  `::` and the last two may be written as four decimal numbers. Printing abbreviates the
  first of the longest runs of at least two zero groups.
-/
import ServiceRegistry.Text.Ascii

namespace ServiceRegistry.Net

/-- An address of four bytes. -/
structure IpV4 where
  a : UInt8
  b : UInt8
  c : UInt8
  d : UInt8
  deriving DecidableEq, Repr

/-- An address of eight groups. -/
structure IpV6 where
  groups : List UInt16
  length_groups : groups.length = 8
  deriving DecidableEq, Repr

/-- The address of a host. -/
inductive Ip
  | v4 (address : IpV4)
  | v6 (address : IpV6)
  deriving DecidableEq, Repr

/-! ## Printing -/

/-- Four numbers between dots. -/
def IpV4.text (x : IpV4) : List Char :=
  Nat.toDigits 10 x.a.toNat ++ '.' :: Nat.toDigits 10 x.b.toNat ++ '.' :: Nat.toDigits 10 x.c.toNat
    ++ '.' :: Nat.toDigits 10 x.d.toNat

/-- The number of zero groups at the front. -/
def zerosAtFront (groups : List UInt16) : Nat := (groups.takeWhile (· == 0)).length

/-- Start and length of the first longest run of zero groups. -/
def longestZeros : List UInt16 → Nat × Nat
  | [] => (0, 0)
  | g :: gs =>
    let (start, n) := longestZeros gs
    let here := zerosAtFront (g :: gs)
    if here ≥ n then (0, here) else (start + 1, n)

/-- Groups between colons. -/
def groupsText : List UInt16 → List Char
  | [] => []
  | [g] => Nat.toDigits 16 g.toNat
  | g :: gs => Nat.toDigits 16 g.toNat ++ ':' :: groupsText gs

/-- The address of four bytes that an address of eight groups stands for. -/
def IpV6.mapped? (x : IpV6) : Option IpV4 :=
  match x.groups with
  | [0, 0, 0, 0, 0, 0xffff, g, h] =>
    some ⟨(g >>> 8).toUInt8, g.toUInt8, (h >>> 8).toUInt8, h.toUInt8⟩
  | _ => none

/-- Eight groups, with the longest run of zeros left out. -/
def IpV6.text (x : IpV6) : List Char :=
  match x.mapped? with
  | some y => "::ffff:".toList ++ y.text
  | none =>
    let (start, n) := longestZeros x.groups
    if n > 1 then
      groupsText (x.groups.take start) ++ ':' :: ':' :: groupsText (x.groups.drop (start + n))
    else groupsText x.groups

namespace Ip

/-- The text of an address. -/
def text : Ip → String
  | v4 x => String.ofList x.text
  | v6 x => String.ofList x.text

/-- An address of eight groups that stands for one of four bytes becomes that one. -/
def canonical : Ip → Ip
  | v4 x => v4 x
  | v6 x => match x.mapped? with
    | some y => v4 y
    | none => v6 x

/-- The addresses by which a machine reaches itself. -/
def isLoopback : Ip → Bool
  | v4 x => x.a == 127
  | v6 x => x.groups == [0, 0, 0, 0, 0, 0, 0, 1]

end Ip

/-! ## Reading -/

/-- Reads a number of at most `most` digits of a base and gives the rest of the text. -/
def readDigits? (base most : Nat) (cs : List Char) : Option (List Char × Nat × List Char) :=
  let ds := cs.takeWhile fun c => (Text.digitIn? base c).isSome
  if ds.length > most then none
  else
    (Text.readNatural? base ds).map fun n =>
      (ds, n, cs.dropWhile fun c => (Text.digitIn? base c).isSome)

/-- Reads a decimal byte without leading zeros. -/
def readByte? (cs : List Char) : Option (UInt8 × List Char) :=
  match readDigits? 10 3 cs with
  | some (ds, n, rest) =>
    if n < 256 ∧ ¬ (ds.head? = some '0' ∧ ds.length > 1) then some (UInt8.ofNat n, rest) else none
  | none => none

/-- Reads a group of hexadecimal digits. -/
def readGroup? (cs : List Char) : Option (UInt16 × List Char) :=
  (readDigits? 16 4 cs).map fun (_, n, rest) => (UInt16.ofNat n, rest)

/-- Reads one character. -/
def readChar? (c : Char) : List Char → Option (List Char)
  | [] => none
  | d :: cs => if c = d then some cs else none

/-- Reads four numbers between dots. -/
def readV4? (cs : List Char) : Option (IpV4 × List Char) := do
  let (a, cs) ← readByte? cs
  let (b, cs) ← readByte? (← readChar? '.' cs)
  let (c, cs) ← readByte? (← readChar? '.' cs)
  let (d, cs) ← readByte? (← readChar? '.' cs)
  pure (⟨a, b, c, d⟩, cs)

/-- Reads the colon before every group but the first. -/
def readColon? (first : Bool) (cs : List Char) : Option (List Char) :=
  if first then some cs else readChar? ':' cs

/-- The two groups of an address of four bytes. -/
def IpV4.groups (x : IpV4) : List UInt16 :=
  [x.a.toUInt16 * 256 + x.b.toUInt16, x.c.toUInt16 * 256 + x.d.toUInt16]

/-- Reads at most the given number of groups between colons. Where two are left they may
be written as four bytes, which ends the reading. -/
def readGroups : Nat → Bool → List Char → List UInt16 × Bool × List Char
  | 0, _, cs => ([], false, cs)
  | n + 1, first, cs =>
    match if n = 0 then none else (readColon? first cs).bind readV4? with
    | some (x, rest) => (x.groups, true, rest)
    | none =>
      match (readColon? first cs).bind readGroup? with
      | some (g, rest) =>
        let (gs, ended, rest) := readGroups n false rest
        (g :: gs, ended, rest)
      | none => ([], false, cs)

/-- Eight groups as an address. -/
def IpV6.ofGroups? (groups : List UInt16) : Option IpV6 :=
  if h : groups.length = 8 then some ⟨groups, h⟩ else none

/-- Reads eight groups, or fewer around `::`, which stands for at least one. -/
def readV6? (cs : List Char) : Option (IpV6 × List Char) :=
  let (head, ended, rest) := readGroups 8 true cs
  if head.length = 8 then (IpV6.ofGroups? head).map (·, rest)
  else if ended then none
  else do
    let rest ← readChar? ':' (← readChar? ':' rest)
    let (tail, _, rest) := readGroups (7 - head.length) true rest
    let zeros := List.replicate (8 - head.length - tail.length) 0
    (IpV6.ofGroups? (head ++ zeros ++ tail)).map (·, rest)

/-- The address with a text. -/
def Ip.ofText? (text : String) : Option Ip :=
  let whole := match readV4? text.toList with
    | some (x, rest) => some (Ip.v4 x, rest)
    | none => (readV6? text.toList).map fun (x, rest) => (Ip.v6 x, rest)
  match whole with
  | some (x, []) => some x
  | _ => none

end ServiceRegistry.Net
