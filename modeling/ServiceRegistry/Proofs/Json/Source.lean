/-
  ServiceRegistry.Proofs.Json.Source

  JSON as it may be written. A source is a value with all that the standard leaves open: blanks
  around every token, the spelling of strings, large and small letters and signs of exponents.
  It stands for the bytes of its text and for the tree that is meant by it (`Source.tree`), and
  the text is read as this tree, whose shape has no fault.

  Reading stops right after a value and leaves the blanks that follow, so what is left agrees with
  what was to be left only from the first byte that is no blank.
-/
import ServiceRegistry.Proofs.Json.RoundTrip

namespace ServiceRegistry.Json

open Text (ascii isDigitByte)

/-! ## Tokens -/

/-- Blanks between tokens. -/
abbrev Blanks : Type := { bs : List UInt8 // ∀ b ∈ bs, isBlank b = true }

def noBlanks : Blanks := ⟨[], nofun⟩

/-- Digits, at least one. -/
abbrev Digits : Type := { ds : List UInt8 // ds ≠ [] ∧ ∀ d ∈ ds, isDigitByte d = true }

/-- A piece of a string as it may be written. -/
inductive Stroke
  | plain (b : UInt8) (h : b ≠ ascii '"' ∧ b ≠ ascii '\\' ∧ ¬ b < 0x20)
  | short (e b : UInt8) (h : escaped? e = some b)
  | unit (p q r s : UInt8) (n : Nat) (h : hexValue? [p, q, r, s] = some n)

namespace Stroke

/-- The bytes of a piece. -/
def bytes : Stroke → List UInt8
  | plain b _ => [b]
  | short e _ _ => [ascii '\\', e]
  | unit p q r s _ _ => [ascii '\\', ascii 'u', p, q, r, s]

/-- What is meant by a piece. -/
def piece : Stroke → Piece
  | plain b _ => .byte b
  | short _ b _ => .byte b
  | unit _ _ _ _ n _ => .unit n

/-- The bytes of a string between quotes. -/
def quoted (ss : List Stroke) : List UInt8 := ascii '"' :: (ss.flatMap bytes ++ [ascii '"'])

/-- What is meant by a string. -/
def string (ss : List Stroke) : RawString := ⟨ss.map piece, .closed⟩

end Stroke

/-- A number as it may be written. A leading zero stands alone. -/
structure Figure where
  negative : Bool := false
  whole : Digits
  leading : whole.1.head? = some (ascii '0') → whole.1.tail = []
  fraction : Option Digits := none
  /-- Whether the letter is a large one, whether there is a sign and a minus, and the digits. -/
  exponent : Option (Bool × Option Bool × Digits) := none

namespace Figure

/-- The bytes of an exponent. -/
def exponentBytes : Option (Bool × Option Bool × Digits) → List UInt8
  | none => []
  | some (large, sign, ds) =>
    (if large then ascii 'E' else ascii 'e') :: ((match sign with
      | none => []
      | some minus => [if minus then ascii '-' else ascii '+']) ++ ds.1)

/-- The bytes of a fraction. -/
def fractionBytes : Option Digits → List UInt8
  | none => []
  | some ds => ascii '.' :: ds.1

/-- The bytes of a number without its sign. -/
def magnitudeBytes (x : Figure) : List UInt8 :=
  x.whole.1 ++ (fractionBytes x.fraction ++ exponentBytes x.exponent)

/-- The bytes of a number. -/
def bytes (x : Figure) : List UInt8 :=
  if x.negative then ascii '-' :: x.magnitudeBytes else x.magnitudeBytes

/-- What is meant by a number. -/
def numeral (x : Figure) : Numeral :=
  { negative := x.negative
    whole := x.whole.1
    fraction := x.fraction.map (·.1)
    exponent := x.exponent.map fun (_, sign, ds) => (sign == some true, ds.1) }

end Figure

/-! ## Values -/

/-- The key of a member with the blanks around it. -/
structure Key where
  before : Blanks
  strokes : List Stroke
  after : Blanks

/-- A JSON text. -/
inductive Source
  | null
  | bool (value : Bool)
  | number (x : Figure)
  | string (strokes : List Stroke)
  | array (lead : Blanks) (items : List Source)
  | object (lead : Blanks) (members : List (Key × Source))
  | spaced (before : Blanks) (value : Source) (after : Blanks)

namespace Source

/-- What is shown of every value is shown of values of which it is known for all parts. -/
@[elab_as_elim]
theorem induct {motive : Source → Prop} (null : motive .null) (bool : ∀ b, motive (.bool b))
    (number : ∀ x, motive (.number x)) (string : ∀ ss, motive (.string ss))
    (array : ∀ lead items, (∀ x ∈ items, motive x) → motive (.array lead items))
    (object : ∀ lead members, (∀ m ∈ members, motive m.2) → motive (.object lead members))
    (spaced : ∀ before value after, motive value → motive (.spaced before value after)) :
    ∀ src, motive src
  | .null => null
  | .bool b => bool b
  | .number x => number x
  | .string ss => string ss
  | .array lead items =>
    array lead items fun x _ => induct null bool number string array object spaced x
  | .object lead members =>
    object lead members fun m _ => induct null bool number string array object spaced m.2
  | .spaced before value after =>
    spaced before value after (induct null bool number string array object spaced value)
termination_by src => sizeOf src
decreasing_by
  · have := List.sizeOf_lt_of_mem ‹x ∈ items›
    simp only [Source.array.sizeOf_spec]
    omega
  · have := List.sizeOf_lt_of_mem ‹m ∈ members›
    obtain ⟨key, value⟩ := m
    simp only [Source.object.sizeOf_spec, Prod.mk.sizeOf_spec] at this ⊢
    omega
  · simp only [Source.spaced.sizeOf_spec]
    omega

mutual

/-- The bytes of a text. -/
def bytes : Source → List UInt8
  | null => ['n', 'u', 'l', 'l'].map ascii
  | bool true => ['t', 'r', 'u', 'e'].map ascii
  | bool false => ['f', 'a', 'l', 's', 'e'].map ascii
  | number x => x.bytes
  | string ss => Stroke.quoted ss
  | array lead [] => ascii '[' :: (lead.1 ++ [ascii ']'])
  | array lead (x :: xs) => ascii '[' :: (lead.1 ++ (bytes x ++ itemsBytes xs))
  | object lead [] => ascii '\x7b' :: (lead.1 ++ [ascii '\x7d'])
  | object lead (m :: ms) => ascii '\x7b' :: (lead.1 ++ (memberBytes m ++ membersBytes ms))
  | spaced before value after => before.1 ++ (bytes value ++ after.1)

/-- The items after the first, and the closing bracket. -/
def itemsBytes : List Source → List UInt8
  | [] => [ascii ']']
  | x :: xs => ascii ',' :: (bytes x ++ itemsBytes xs)

/-- A member of an object. -/
def memberBytes : Key × Source → List UInt8
  | (key, value) =>
    key.before.1 ++ (Stroke.quoted key.strokes ++ (key.after.1 ++ ascii ':' :: bytes value))

/-- The members after the first, and the closing brace. -/
def membersBytes : List (Key × Source) → List UInt8
  | [] => [ascii '\x7d']
  | m :: ms => ascii ',' :: (memberBytes m ++ membersBytes ms)

end

mutual

/-- What is meant by a text. -/
def tree : Source → Raw
  | null => .null
  | bool b => .bool b
  | number x => .number x.numeral .complete
  | string ss => .string (Stroke.string ss)
  | array _ items => .array (itemTrees items) .closed
  | object _ members => .object (memberTrees members) .closed
  | spaced _ value _ => tree value

/-- What is meant by items. -/
def itemTrees : List Source → List Raw
  | [] => []
  | x :: xs => tree x :: itemTrees xs

/-- What is meant by members. -/
def memberTrees : List (Key × Source) → List (RawString × Raw)
  | [] => []
  | (key, value) :: ms => (Stroke.string key.strokes, tree value) :: memberTrees ms

end

/-- A value without the blanks around it. -/
def trimmed : Source → Source
  | spaced _ value _ => trimmed value
  | src => src

theorem tree_trimmed (src : Source) : src.trimmed.tree = src.tree := by
  induction src using Source.induct with
  | spaced _ _ _ ih => exact ih
  | _ => rfl

theorem memberTrees_eq (members : List (Key × Source)) :
    memberTrees members = members.map fun m => (Stroke.string m.1.strokes, m.2.tree) := by
  induction members with
  | nil => rfl
  | cons m ms ih => rw [memberTrees, ih, List.map_cons]

end Source

/-! ## Reading tokens -/

/-- What may follow a value: nothing, a blank, a comma or a closing bracket. -/
def Follows (rest : List UInt8) : Prop :=
  ∀ b ∈ rest.head?, isBlank b = true ∨ b ∈ [ascii ',', ascii ']', ascii '\x7d']

theorem follows_nil : Follows [] := nofun

theorem follows_cons {b : UInt8} (h : b ∈ [ascii ',', ascii ']', ascii '\x7d'])
    (rest : List UInt8) : Follows (b :: rest) := by
  rintro _ ⟨⟩
  exact .inr h

theorem follows_blanks (bs : Blanks) {rest : List UInt8} (h : Follows rest) :
    Follows (bs.1 ++ rest) := by
  obtain ⟨bs, hbs⟩ := bs
  cases bs with
  | nil => exact h
  | cons b bs =>
    rintro _ ⟨⟩
    exact .inl (hbs b List.mem_cons_self)

/-- Nothing that may be a part of a number may follow one. -/
theorem Follows.eq_or {rest : List UInt8} (h : Follows rest) :
    rest = [] ∨ ∃ b tail, rest = b :: tail ∧ isDigitByte b = false ∧ b ≠ ascii '.' ∧
      b ≠ ascii 'e' ∧ b ≠ ascii 'E' := by
  cases rest with
  | nil => exact .inl rfl
  | cons b tail =>
    have hnone : isDigitByte b = false ∧ b ≠ ascii '.' ∧ b ≠ ascii 'e' ∧ b ≠ ascii 'E' := by
      rcases h b rfl with hblank | hmem
      · simp only [isBlank, Bool.or_eq_true, beq_iff_eq] at hblank
        rcases hblank with ((rfl | rfl) | rfl) | rfl <;> decide
      · simp only [List.mem_cons, List.not_mem_nil, or_false] at hmem
        rcases hmem with rfl | rfl | rfl <;> decide
    exact .inr ⟨b, tail, rfl, hnone⟩

theorem skipBlanks_append (bs : Blanks) (text : List UInt8) :
    skipBlanks (bs.1 ++ text) = skipBlanks text :=
  List.dropWhile_append_of_pos bs.2

theorem skipBlanks_append_of_ne_nil {text : List UInt8} (h : skipBlanks text ≠ [])
    (rest : List UInt8) : skipBlanks (text ++ rest) = skipBlanks text ++ rest := by
  unfold skipBlanks at h ⊢
  rw [List.dropWhile_append, if_neg]
  rwa [List.isEmpty_iff]

theorem skipBlanks_before (bs : Blanks) {b : UInt8} (h : isBlank b = false) (text : List UInt8) :
    skipBlanks (bs.1 ++ b :: text) = b :: text := by
  rw [skipBlanks_append, skipBlanks_cons h]

theorem readValue_blanks (bs : Blanks) (fuel : Nat) (text : List UInt8) :
    readValue fuel (bs.1 ++ text) = readValue fuel text := by
  cases fuel with
  | zero => rw [readValue.eq_def, readValue.eq_def]
  | succ fuel =>
    rw [readValue.eq_def, readValue.eq_def]
    dsimp only
    rw [skipBlanks_append]

theorem readItems_blanks (bs : Blanks) (fuel : Nat) (text : List UInt8) :
    readItems fuel (bs.1 ++ text) = readItems fuel text := by
  cases fuel with
  | zero => rw [readItems.eq_def, readItems.eq_def]
  | succ fuel =>
    rw [readItems.eq_def, readItems.eq_def]
    dsimp only
    rw [readValue_blanks]

/-! ### Strings -/

theorem readString_stroke (s : Stroke) (text : List UInt8) :
    readString (s.bytes ++ text) = RawString.cons s.piece (readString text) := by
  cases s with
  | plain b h =>
    obtain ⟨hquote, hslash, hcontrol⟩ := h
    exact readString_byte hquote hslash hcontrol text
  | short e b h =>
    have hunit : e ≠ ascii 'u' := by
      rintro rfl
      cases h
    exact readString_short h hunit text
  | unit p q r s n h => exact readString_unit h text

theorem readString_strokes (ss : List Stroke) (text : List UInt8) :
    readString (ss.flatMap Stroke.bytes ++ ascii '"' :: text) = (Stroke.string ss, text) := by
  induction ss with
  | nil => exact readString_quote text
  | cons s ss ih =>
    rw [List.flatMap_cons, List.append_assoc, readString_stroke, ih]
    rfl

theorem quoted_append (ss : List Stroke) (text : List UInt8) :
    Stroke.quoted ss ++ text = ascii '"' :: (ss.flatMap Stroke.bytes ++ ascii '"' :: text) := by
  rw [Stroke.quoted, List.cons_append, List.append_assoc, List.singleton_append]

/-! ### Numbers -/

theorem spanDigits_append (ds : Digits) {rest : List UInt8}
    (h : ∀ b ∈ rest.head?, isDigitByte b = false) : spanDigits (ds.1 ++ rest) = (ds.1, rest) := by
  unfold spanDigits
  rw [List.takeWhile_append_of_pos ds.2.2, List.dropWhile_append_of_pos ds.2.2]
  cases rest with
  | nil => rw [List.takeWhile_nil, List.dropWhile_nil, List.append_nil]
  | cons b rest =>
    have hb : ¬ isDigitByte b = true := by rw [h b rfl]; exact Bool.false_ne_true
    rw [List.takeWhile_cons_of_neg hb, List.dropWhile_cons_of_neg hb, List.append_nil]

namespace Figure

variable {rest : List UInt8} (h : Follows rest)

include h

theorem no_digit_of_follows : ∀ b ∈ rest.head?, isDigitByte b = false := by
  rcases h.eq_or with rfl | ⟨b, tail, rfl, hdigit, -⟩
  · exact nofun
  · rintro _ ⟨⟩
    exact hdigit

theorem readExponent_append (x : Numeral) (hx : x.exponent = none)
    (e : Option (Bool × Option Bool × Digits)) :
    readExponent x (exponentBytes e ++ rest)
      = (.number { x with
          exponent := e.map fun (_, sign, ds) => (sign == some true, ds.1) } .complete, rest) := by
  cases e with
  | none =>
    have hsame : { x with exponent := none } = x := by rw [← hx]
    rw [exponentBytes, List.nil_append, Option.map_none, hsame]
    rcases h.eq_or with rfl | ⟨b, tail, rfl, -, -, hsmall, hlarge⟩
    · rfl
    · rw [readExponent]
      exact if_neg (not_or.2 ⟨hsmall, hlarge⟩)
  | some e =>
    obtain ⟨large, sign, ds⟩ := e
    obtain ⟨ds, hne, hdigits⟩ := ds
    obtain ⟨d, ds, rfl⟩ := List.exists_cons_of_ne_nil hne
    have hspan : spanDigits (d :: (ds ++ rest)) = (d :: ds, rest) :=
      spanDigits_append ⟨d :: ds, hne, hdigits⟩ (no_digit_of_follows h)
    have hd : isDigitByte d = true := hdigits d List.mem_cons_self
    have hminus : d ≠ ascii '-' := ne_of_isDigitByte hd (by decide)
    have hplus : d ≠ ascii '+' := ne_of_isDigitByte hd (by decide)
    have hsigns : ascii '+' ≠ ascii '-' := by decide
    have hletter : (if large then ascii 'E' else ascii 'e') = ascii 'e' ∨
        (if large then ascii 'E' else ascii 'e') = ascii 'E' := by
      cases large <;> decide
    unfold exponentBytes
    dsimp only
    rw [List.cons_append, readExponent]
    dsimp only
    rw [if_pos hletter]
    -- Without a sign a digit comes next.
    cases sign with
    | none => simp [hminus, hplus, hspan]
    | some minus => cases minus <;> simp [hspan, hsigns]

theorem head_exponent (e : Option (Bool × Option Bool × Digits)) :
    ∀ b ∈ (exponentBytes e ++ rest).head?, isDigitByte b = false ∧ b ≠ ascii '.' := by
  cases e with
  | none =>
    rcases h.eq_or with rfl | ⟨b, tail, rfl, hdigit, hpoint, -⟩
    · exact nofun
    · rintro _ ⟨⟩
      exact ⟨hdigit, hpoint⟩
  | some e =>
    have hletter : ∀ large : Bool, isDigitByte (if large then ascii 'E' else ascii 'e') = false ∧
        (if large then ascii 'E' else ascii 'e') ≠ ascii '.' := by
      decide
    rintro _ ⟨⟩
    exact hletter e.1

theorem readFraction_append (x : Numeral) (hfraction : x.fraction = none)
    (hexponent : x.exponent = none) (f : Option Digits)
    (e : Option (Bool × Option Bool × Digits)) :
    readFraction x (fractionBytes f ++ (exponentBytes e ++ rest))
      = (.number { x with
          fraction := f.map (·.1)
          exponent := e.map fun (_, sign, ds) => (sign == some true, ds.1) } .complete, rest) := by
  have hhead := head_exponent h e
  cases f with
  | none =>
    rw [fractionBytes, List.nil_append, Option.map_none, ← hfraction]
    refine Eq.trans ?_ (readExponent_append h x hexponent e)
    generalize exponentBytes e ++ rest = text at hhead
    cases text with
    | nil => rfl
    | cons b tail =>
      obtain ⟨-, hpoint⟩ := hhead b rfl
      exact if_neg hpoint
  | some ds =>
    have hspan := spanDigits_append ds fun b hb => (hhead b hb).1
    have hread := readExponent_append h { x with fraction := some ds.1 } hexponent e
    obtain ⟨ds, hne, hdigits⟩ := ds
    obtain ⟨d, ds, rfl⟩ := List.exists_cons_of_ne_nil hne
    rw [fractionBytes, List.cons_append, readFraction, if_pos rfl, hspan]
    exact hread

theorem readNumber_append (x : Figure) :
    readNumber x.negative (x.magnitudeBytes ++ rest)
      = (.number x.numeral .complete, rest) := by
  have hhead : ∀ b ∈ (fractionBytes x.fraction ++ (exponentBytes x.exponent ++ rest)).head?,
      isDigitByte b = false := by
    cases x.fraction with
    | none => exact fun b hb => (head_exponent h x.exponent b hb).1
    | some ds =>
      rintro _ ⟨⟩
      decide
  have hspan := spanDigits_append x.whole hhead
  have hread := readFraction_append h { negative := x.negative, whole := x.whole.1 } rfl rfl
    x.fraction x.exponent
  obtain ⟨negative, ⟨ds, hne, hdigits⟩, hleading, fraction, exponent⟩ := x
  obtain ⟨d, ds, rfl⟩ := List.exists_cons_of_ne_nil hne
  have hzero : ¬ (d = ascii '0' ∧ ds ≠ []) := by
    rintro ⟨rfl, hds⟩
    exact hds (hleading rfl)
  rw [magnitudeBytes, List.append_assoc, List.append_assoc, readNumber, hspan]
  dsimp only
  rw [if_neg hzero]
  exact hread

theorem readValue_figure (x : Figure) (fuel : Nat) :
    readValue (fuel + 1) (x.bytes ++ rest) = (.number x.numeral .complete, rest) := by
  have hread := readNumber_append h x
  unfold bytes
  cases hnegative : x.negative with
  | true =>
    rw [hnegative] at hread
    rw [if_pos rfl, ← hread, List.cons_append, readValue.eq_def]
    dsimp only
    rw [skipBlanks_cons (by decide)]
    rfl
  | false =>
    rw [hnegative] at hread
    rw [if_neg Bool.false_ne_true, ← hread]
    unfold magnitudeBytes
    obtain ⟨d, ds, hds⟩ := List.exists_cons_of_ne_nil x.whole.2.1
    have hd : isDigitByte d = true := x.whole.2.2 d (by rw [hds]; exact List.mem_cons_self)
    rw [hds]
    exact readValue_digit hd fuel _

omit h in
theorem skipBlanks_figure (x : Figure) :
    ∃ b tail, skipBlanks x.bytes = b :: tail ∧ b ≠ ascii ']' := by
  unfold bytes
  split
  · exact ⟨_, _, skipBlanks_cons (by decide) _, by decide⟩
  · obtain ⟨d, ds, hds⟩ := List.exists_cons_of_ne_nil x.whole.2.1
    have hd : isDigitByte d = true := x.whole.2.2 d (by rw [hds]; exact List.mem_cons_self)
    unfold magnitudeBytes
    rw [hds]
    exact ⟨d, _, skipBlanks_cons (isBlank_of_isDigitByte hd) _, ne_of_isDigitByte hd (by decide)⟩

end Figure

/-! ## Reading values -/

namespace Source

/-- The text is read as what is meant by it. -/
structure IsRead (src : Source) : Prop where
  begins : ∃ b tail, skipBlanks src.bytes = b :: tail ∧ b ≠ ascii ']'
  reads : ∀ fuel rest, 2 * src.bytes.length ≤ fuel + 1 → Follows rest →
    ∃ left, readValue (fuel + 1) (src.bytes ++ rest) = (src.tree, left) ∧
      skipBlanks left = skipBlanks rest

/-! ### Arrays -/

theorem readItems_source {x : Source} {xs : List Source} (hx : x.IsRead)
    (hxs : ∀ y ∈ xs, y.IsRead) {fuel : Nat} {rest : List UInt8}
    (hfuel : 2 * (x.bytes ++ itemsBytes xs).length ≤ fuel) :
    readItems (fuel + 1) (x.bytes ++ (itemsBytes xs ++ rest))
      = (x.tree :: itemTrees xs, .closed, rest) := by
  -- Along the items; what is left of the fuel is enough for each of them.
  induction xs generalizing x fuel with
  | nil =>
    rw [itemsBytes, List.length_append, List.length_singleton] at hfuel
    obtain ⟨fuel, rfl⟩ : ∃ n, fuel = n + 1 := ⟨fuel - 1, by omega⟩
    obtain ⟨left, hread, hleft⟩ := hx.reads fuel (ascii ']' :: rest) (by omega)
      (follows_cons (by decide) rest)
    rw [skipBlanks_cons (by decide)] at hleft
    exact readItems_last hread hleft
  | cons y ys ih =>
    rw [itemsBytes, List.length_append, List.length_cons] at hfuel
    obtain ⟨fuel, rfl⟩ : ∃ n, fuel = n + 1 := ⟨fuel - 1, by omega⟩
    obtain ⟨hy, hys⟩ := List.forall_mem_cons.1 hxs
    obtain ⟨left, hread, hleft⟩ := hx.reads fuel
      (ascii ',' :: (y.bytes ++ (itemsBytes ys ++ rest))) (by omega) (follows_cons (by decide) _)
    rw [skipBlanks_cons (by decide)] at hleft
    rw [itemsBytes, List.cons_append, List.append_assoc, readItems_more hread hleft,
      ih hy hys (by omega)]
    rfl

theorem isRead_array (lead : Blanks) {items : List Source} (h : ∀ x ∈ items, x.IsRead) :
    (array lead items).IsRead := by
  cases items with
  | nil =>
    refine ⟨⟨_, _, skipBlanks_cons (by decide) _, by decide⟩, fun fuel rest _ _ => ⟨rest, ?_, rfl⟩⟩
    rw [bytes, List.cons_append, List.append_assoc, List.singleton_append]
    exact readValue_emptyArray fuel (skipBlanks_before lead (by decide) rest)
  | cons x xs =>
    obtain ⟨hx, hxs⟩ := List.forall_mem_cons.1 h
    refine ⟨⟨_, _, skipBlanks_cons (by decide) _, by decide⟩,
      fun fuel rest hfuel _ => ⟨rest, ?_, rfl⟩⟩
    obtain ⟨b, tail, hbegins, hb⟩ := hx.begins
    have hfirst : skipBlanks (lead.1 ++ (x.bytes ++ (itemsBytes xs ++ rest)))
        = b :: (tail ++ (itemsBytes xs ++ rest)) := by
      rw [skipBlanks_append, ← List.cons_append, ← hbegins]
      exact skipBlanks_append_of_ne_nil (by rw [hbegins]; exact List.cons_ne_nil _ _) _
    rw [bytes, List.length_cons, List.length_append] at hfuel
    obtain ⟨fuel, rfl⟩ : ∃ n, fuel = n + 1 := ⟨fuel - 1, by omega⟩
    have hitems : readItems (fuel + 1) (lead.1 ++ (x.bytes ++ (itemsBytes xs ++ rest)))
        = (x.tree :: itemTrees xs, .closed, rest) := by
      rw [readItems_blanks]
      exact readItems_source hx hxs (by omega)
    rw [bytes, List.cons_append, List.append_assoc, List.append_assoc,
      readValue_items _ hfirst hb, hitems]
    rfl

/-! ### Objects -/

/-- What is written of a member after its opening quote, and what follows. -/
def openedBytes (key : Key) (value : Source) (rest : List UInt8) : List UInt8 :=
  key.strokes.flatMap Stroke.bytes
    ++ ascii '"' :: (key.after.1 ++ ascii ':' :: (value.bytes ++ rest))

theorem memberBytes_append (key : Key) (value : Source) (rest : List UInt8) :
    memberBytes (key, value) ++ rest = key.before.1 ++ ascii '"' :: openedBytes key value rest := by
  rw [memberBytes, openedBytes, ← quoted_append]
  simp only [List.append_assoc, List.cons_append]

theorem readString_openedBytes (key : Key) (value : Source) (rest : List UInt8) :
    readString (openedBytes key value rest)
      = (Stroke.string key.strokes, key.after.1 ++ ascii ':' :: (value.bytes ++ rest)) :=
  readString_strokes _ _

theorem readMembers_source {key : Key} {value : Source} {ms : List (Key × Source)}
    (hvalue : value.IsRead) (hms : ∀ m ∈ ms, m.2.IsRead) {fuel : Nat} {rest : List UInt8}
    (hfuel : 2 * (value.bytes ++ membersBytes ms).length ≤ fuel) :
    readMembers (fuel + 1) (openedBytes key value (membersBytes ms ++ rest))
      = ((Stroke.string key.strokes, value.tree) :: memberTrees ms, .closed, rest) := by
  induction ms generalizing key value fuel with
  | nil =>
    rw [membersBytes, List.length_append, List.length_singleton] at hfuel
    obtain ⟨fuel, rfl⟩ : ∃ n, fuel = n + 1 := ⟨fuel - 1, by omega⟩
    obtain ⟨left, hread, hleft⟩ := hvalue.reads fuel (ascii '\x7d' :: rest) (by omega)
      (follows_cons (by decide) rest)
    rw [skipBlanks_cons (by decide)] at hleft
    exact readMembers_last (readString_openedBytes key value _)
      (skipBlanks_before key.after (by decide) _) hread hleft
  | cons m ms ih =>
    obtain ⟨mkey, mvalue⟩ := m
    obtain ⟨hm, hms⟩ := List.forall_mem_cons.1 hms
    have hmvalue : mvalue.IsRead := hm
    have hmembers : membersBytes ((mkey, mvalue) :: ms) ++ rest = ascii ',' ::
        (mkey.before.1 ++ ascii '"' :: openedBytes mkey mvalue (membersBytes ms ++ rest)) := by
      rw [membersBytes, List.cons_append, List.append_assoc, memberBytes_append]
    have hlength : (mvalue.bytes ++ membersBytes ms).length + 2
        ≤ (membersBytes ((mkey, mvalue) :: ms)).length := by
      rw [membersBytes, memberBytes]
      simp only [List.length_append, List.length_cons]
      omega
    rw [List.length_append] at hfuel
    obtain ⟨fuel, rfl⟩ : ∃ n, fuel = n + 1 := ⟨fuel - 1, by omega⟩
    obtain ⟨left, hread, hleft⟩ := hvalue.reads fuel (ascii ',' ::
      (mkey.before.1 ++ ascii '"' :: openedBytes mkey mvalue (membersBytes ms ++ rest)))
      (by omega) (follows_cons (by decide) _)
    rw [skipBlanks_cons (by decide)] at hleft
    rw [hmembers, readMembers_more (readString_openedBytes key value _)
      (skipBlanks_before key.after (by decide) _) hread hleft
      (skipBlanks_before mkey.before (by decide) _), ih hmvalue hms (by omega)]
    rfl

theorem isRead_object (lead : Blanks) {members : List (Key × Source)}
    (h : ∀ m ∈ members, m.2.IsRead) : (object lead members).IsRead := by
  cases members with
  | nil =>
    refine ⟨⟨_, _, skipBlanks_cons (by decide) _, by decide⟩, fun fuel rest _ _ => ⟨rest, ?_, rfl⟩⟩
    rw [bytes, List.cons_append, List.append_assoc, List.singleton_append]
    exact readValue_emptyObject fuel (skipBlanks_before lead (by decide) rest)
  | cons m ms =>
    obtain ⟨key, value⟩ := m
    obtain ⟨hm, hms⟩ := List.forall_mem_cons.1 h
    have hvalue : value.IsRead := hm
    refine ⟨⟨_, _, skipBlanks_cons (by decide) _, by decide⟩,
      fun fuel rest hfuel _ => ⟨rest, ?_, rfl⟩⟩
    have hlength : (value.bytes ++ membersBytes ms).length + 1
        ≤ (bytes (.object lead ((key, value) :: ms))).length := by
      rw [bytes, memberBytes]
      simp only [List.length_append, List.length_cons]
      omega
    obtain ⟨fuel, rfl⟩ : ∃ n, fuel = n + 1 := ⟨fuel - 1, by omega⟩
    have hfirst : skipBlanks (lead.1 ++ (key.before.1
        ++ ascii '"' :: openedBytes key value (membersBytes ms ++ rest)))
          = ascii '"' :: openedBytes key value (membersBytes ms ++ rest) := by
      rw [skipBlanks_append, skipBlanks_before _ (by decide)]
    rw [bytes, List.cons_append, List.append_assoc, List.append_assoc, memberBytes_append,
      readValue_members _ hfirst, readMembers_source hvalue hms (by omega)]
    rfl

/-! ### All texts -/

theorem isRead_spaced (before after : Blanks) {value : Source} (h : value.IsRead) :
    (spaced before value after).IsRead := by
  obtain ⟨⟨b, tail, hbegins, hb⟩, hreads⟩ := h
  refine ⟨⟨b, tail ++ after.1, ?_, hb⟩, fun fuel rest hfuel hrest => ?_⟩
  · rw [bytes, skipBlanks_append, ← List.cons_append, ← hbegins]
    exact skipBlanks_append_of_ne_nil (by rw [hbegins]; exact List.cons_ne_nil _ _) _
  · rw [bytes] at hfuel ⊢
    simp only [List.length_append] at hfuel
    obtain ⟨left, hread, hleft⟩ := hreads fuel (after.1 ++ rest) (by omega)
      (follows_blanks after hrest)
    rw [List.append_assoc, List.append_assoc, readValue_blanks]
    exact ⟨left, hread, hleft.trans (skipBlanks_append after rest)⟩

theorem readValue_null (fuel : Nat) (rest : List UInt8) :
    readValue (fuel + 1) (null.bytes ++ rest) = (.null, rest) := by
  rw [bytes, readValue.eq_def]
  rfl

theorem readValue_bool (b : Bool) (fuel : Nat) (rest : List UInt8) :
    readValue (fuel + 1) ((bool b).bytes ++ rest) = (.bool b, rest) := by
  cases b with
  | true =>
    rw [bytes, readValue.eq_def]
    rfl
  | false =>
    rw [bytes, readValue.eq_def]
    rfl

theorem isRead (src : Source) : src.IsRead := by
  induction src using induct with
  | null =>
    exact ⟨⟨_, _, skipBlanks_cons (by decide) _, by decide⟩,
      fun fuel rest _ _ => ⟨rest, readValue_null fuel rest, rfl⟩⟩
  | bool b =>
    refine ⟨?_, fun fuel rest _ _ => ⟨rest, readValue_bool b fuel rest, rfl⟩⟩
    cases b with
    | true => exact ⟨_, _, skipBlanks_cons (by decide) _, by decide⟩
    | false => exact ⟨_, _, skipBlanks_cons (by decide) _, by decide⟩
  | number x =>
    exact ⟨x.skipBlanks_figure,
      fun fuel rest _ hrest => ⟨rest, Figure.readValue_figure hrest x fuel, rfl⟩⟩
  | string ss =>
    refine ⟨⟨_, _, skipBlanks_cons (by decide) _, by decide⟩, fun fuel rest _ _ => ⟨rest, ?_, rfl⟩⟩
    rw [bytes, quoted_append, readValue_quote, readString_strokes]
    rfl
  | array lead items ih => exact isRead_array lead ih
  | object lead members ih => exact isRead_object lead ih
  | spaced before value after ih => exact isRead_spaced before after ih

/-- A text is read to its end. -/
theorem read (src : Source) :
    ∃ left, Raw.read src.bytes = (src.tree, left) ∧ skipBlanks left = [] := by
  obtain ⟨left, hread, hleft⟩ := src.isRead.reads (2 * src.bytes.length + 1) [] (by omega)
    follows_nil
  rw [List.append_nil] at hread
  exact ⟨left, hread, hleft⟩

/-- The shape of what is meant by a text has no fault. -/
theorem shapeFault?_tree (src : Source) : src.tree.shapeFault? = none := by
  induction src using induct with
  | null => rfl
  | bool b => rfl
  | number x => rfl
  | string ss => rfl
  | array lead items ih =>
    rw [tree, Raw.shapeFault?]
    induction items with
    | nil => rfl
    | cons x xs ihs =>
      obtain ⟨hx, hxs⟩ := List.forall_mem_cons.1 ih
      rw [itemTrees, itemsFault?, hx]
      exact ihs hxs
  | object lead members ih =>
    rw [tree, Raw.shapeFault?]
    induction members with
    | nil => rfl
    | cons m ms ihs =>
      obtain ⟨key, value⟩ := m
      obtain ⟨hm, hms⟩ := List.forall_mem_cons.1 ih
      have hvalue : value.tree.shapeFault? = none := hm
      rw [memberTrees, membersFault?, memberFault?, hvalue]
      exact ihs hms
  | spaced before value after ih => exact ih

end Source

end ServiceRegistry.Json
