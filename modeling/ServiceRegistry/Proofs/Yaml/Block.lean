/-
  ServiceRegistry.Proofs.Yaml.Block

  Documents line by line. Where no text breaks a line, the lines of a list are those of its items,
  each item after a dash and below it, and the lines of a mapping are those of its members
  (`AreLines.list`, `AreLines.map`).
-/
import Mathlib.Data.List.Forall2
import ServiceRegistry.Proofs.Yaml.Scalar
import ServiceRegistry.Yaml.Block

namespace ServiceRegistry.Yaml

open Text (ofLines)

/-- A line two blanks further in. -/
def inset (line : String) : String := "  " ++ line

/-- The lines of an item of a list. -/
def dashed : List String → List String
  | [] => []
  | line :: rest => ("- " ++ line) :: rest.map inset

/-! ## Solid lines -/

section

variable {line : String} {ls : List String}

theorem IsSolid.isLine (h : IsSolid line) : Text.IsLine line where
  no_feed hmem := by cases h.unbroken _ hmem
  no_return hlast := by cases h.unbroken _ (List.mem_of_getLast? hlast)

theorem IsSolid.append {first : String} (hfirst : IsUnbroken first) (h : IsSolid line) :
    IsSolid (first ++ line) where
  ne_empty heq := h.ne_empty (String.append_eq_empty_iff.1 heq).2
  unbroken := hfirst.append h.unbroken

theorem solid_inset (h : ∀ l ∈ ls, IsSolid l) : ∀ l ∈ ls.map inset, IsSolid l := by
  intro l hl
  obtain ⟨l, hmem, rfl⟩ := List.mem_map.1 hl
  exact IsSolid.append (by decide) (h l hmem)

theorem solid_dashed (h : ∀ l ∈ ls, IsSolid l) : ∀ l ∈ dashed ls, IsSolid l := by
  cases ls with
  | nil => exact nofun
  | cons l ls =>
    obtain ⟨hl, hls⟩ := List.forall_mem_cons.1 h
    exact List.forall_mem_cons.2 ⟨hl.append (by decide), solid_inset hls⟩

/-! ## Indentation -/

theorem indented_unbroken {cs : List Char} (h : ∀ c ∈ cs, isBreak c = false) (rest : List Char) :
    indented false (cs ++ rest) = cs ++ indented false rest := by
  induction cs with
  | nil => rfl
  | cons c cs ih =>
    obtain ⟨hc, hcs⟩ := List.forall_mem_cons.1 h
    rw [List.cons_append, indented, hc, if_neg Bool.false_ne_true, if_neg Bool.false_ne_true,
      ih hcs, List.cons_append]

/-- A line that has begun stays where it is. -/
theorem indented_line (h : IsSolid line) (rest : List Char) :
    indented false (line.toList ++ '\n' :: rest) = line.toList ++ '\n' :: indented true rest := by
  rw [indented_unbroken h.unbroken, indented, if_pos (by decide)]

theorem indented_start (h : IsSolid line) (rest : List Char) :
    indented true (line.toList ++ rest) = ' ' :: ' ' :: indented false (line.toList ++ rest) := by
  obtain ⟨c, cs, hcs⟩ := List.exists_cons_of_ne_nil (mt String.toList_eq_nil_iff.1 h.ne_empty)
  have hc : isBreak c = false := h.unbroken c (hcs ▸ List.mem_cons_self)
  rw [hcs, List.cons_append, indented, indented, hc, if_neg Bool.false_ne_true,
    if_neg Bool.false_ne_true, if_pos rfl]
  rfl

theorem indented_ofLines (h : ∀ l ∈ ls, IsSolid l) :
    indented true (ofLines ls).toList = (ofLines (ls.map inset)).toList := by
  induction ls with
  | nil => rfl
  | cons l ls ih =>
    obtain ⟨hl, hls⟩ := List.forall_mem_cons.1 h
    rw [Text.toList_ofLines_cons, indented_start hl, indented_line hl, ih hls, List.map_cons,
      Text.toList_ofLines_cons, inset, String.toList_append]
    rfl

/-- Indentation adds blanks and nothing else. -/
theorem return_mem_indented_iff {atStart : Bool} {cs : List Char} :
    '\r' ∈ indented atStart cs ↔ '\r' ∈ cs := by
  induction cs generalizing atStart with
  | nil => rfl
  | cons c cs ih =>
    unfold indented
    split
    · rw [List.mem_cons, List.mem_cons, ih]
    · split
      · simp [ih]
      · rw [List.mem_cons, List.mem_cons, ih]

end

/-! ## Lines of values -/

theorem itemsBlock_eq (xs : List Yaml) :
    itemsBlock xs = xs.flatMap fun x => '-' :: ' ' :: indented false x.block := by
  induction xs with
  | nil => rfl
  | cons x xs ih => rw [itemsBlock, ih, List.flatMap_cons]

theorem membersBlock_eq (ms : List (String × Yaml)) : membersBlock ms = ms.flatMap memberBlock := by
  induction ms with
  | nil => rfl
  | cons m ms ih => rw [membersBlock, ih, List.flatMap_cons]

theorem block_list {xs : List Yaml} (h : xs ≠ []) :
    block (list xs) = xs.flatMap fun x => '-' :: ' ' :: indented false x.block := by
  obtain ⟨x, xs, rfl⟩ := List.exists_cons_of_ne_nil h
  rw [block, itemsBlock_eq, List.flatMap_cons]

theorem block_map {ms : List (String × Yaml)} (h : ms ≠ []) :
    block (map ms) = ms.flatMap memberBlock := by
  obtain ⟨m, ms, rfl⟩ := List.exists_cons_of_ne_nil h
  rw [block, membersBlock_eq, List.flatMap_cons]

/-- What is written are these lines. -/
structure AreLines (cs : List Char) (ls : List String) : Prop where
  eq : cs = (ofLines ls).toList
  ne_nil : ls ≠ []
  solid : ∀ l ∈ ls, IsSolid l

namespace AreLines

theorem lines_render {y : Yaml} {ls : List String} (h : AreLines y.block ls) :
    Text.lines y.render = ls := by
  rw [render, h.eq, String.ofList_toList, Text.lines_ofLines fun l hl => (h.solid l hl).isLine]

theorem singleton {line : String} (h : IsSolid line) : AreLines (line ++ "\n").toList [line] where
  eq := by rw [Text.ofLines_cons, Text.ofLines_nil, String.append_empty]
  ne_nil := nofun
  solid l hl := List.mem_singleton.1 hl ▸ h

theorem text {s : String} (h : IsUnbroken s) :
    AreLines (Yaml.text s).block [written s] := by
  obtain ⟨hsolid, heq⟩ := scalar_of_unbroken h
  rw [block, heq]
  exact singleton hsolid

theorem flatten {css : List (List Char)} {lss : List (List String)} (hne : css ≠ [])
    (h : List.Forall₂ AreLines css lss) : AreLines css.flatten lss.flatten where
  eq := by
    clear hne
    induction h with
    | nil => rfl
    | cons hl _ ih =>
      rw [List.flatten_cons, List.flatten_cons, Text.toList_ofLines, List.flatMap_append,
        ← Text.toList_ofLines, ← Text.toList_ofLines, ← hl.eq, ← ih]
  ne_nil := by
    cases h with
    | nil => exact absurd rfl hne
    | cons hl _ =>
      rw [List.flatten_cons, Ne, List.append_eq_nil_iff]
      exact fun hnil => hl.ne_nil hnil.1
  solid := by
    clear hne
    induction h with
    | nil => exact nofun
    | cons hl _ ih =>
      intro l hmem
      rw [List.flatten_cons, List.mem_append] at hmem
      exact hmem.elim (hl.solid l) (ih l)

variable {cs : List Char} {ls : List String}

/-- What comes after a dash. -/
theorem item (h : AreLines cs ls) : AreLines ('-' :: ' ' :: indented false cs) (dashed ls) := by
  obtain ⟨l, ls, rfl⟩ := List.exists_cons_of_ne_nil h.ne_nil
  obtain ⟨hl, hls⟩ := List.forall_mem_cons.1 h.solid
  refine ⟨?_, nofun, solid_dashed h.solid⟩
  rw [h.eq, Text.toList_ofLines_cons, indented_line hl, indented_ofLines hls, dashed,
    Text.toList_ofLines_cons, String.toList_append]
  rfl

/-- The lines of a list are those of its items. -/
theorem list {xs : List Yaml} {lss : List (List String)} (hne : xs ≠ [])
    (h : List.Forall₂ (fun x => AreLines x.block) xs lss) :
    AreLines (Yaml.list xs).block (lss.flatMap dashed) := by
  rw [block_list hne, List.flatMap_def, List.flatMap_def]
  refine flatten (by simpa using hne) ?_
  rw [List.forall₂_map_left_iff, List.forall₂_map_right_iff]
  exact h.imp fun x ls hx => hx.item

/-! ### Members of mappings -/

/-- The lines of a mapping are those of its members. -/
theorem map {ms : List (String × Yaml)} {lss : List (List String)} (hne : ms ≠ [])
    (h : List.Forall₂ (fun m => AreLines (memberBlock m)) ms lss) :
    AreLines (Yaml.map ms).block lss.flatten := by
  rw [block_map hne, List.flatMap_def]
  refine flatten (by simpa using hne) ?_
  rwa [List.forall₂_map_left_iff]

variable {key : String} (hkey : IsUnbroken key)

include hkey

theorem solid_key : IsSolid (key ++ ":") :=
  IsSolid.append hkey (by decide)

theorem memberText {value : String} (h : IsUnbroken value) :
    AreLines (memberBlock (key, .text value)) [key ++ ": " ++ written value] := by
  have hkeyed : IsUnbroken (key ++ ": ") := hkey.append (by decide)
  obtain ⟨hsolid, hscalar⟩ := scalar_of_unbroken h
  have hstays : indented false (written value ++ "\n").toList = (written value ++ "\n").toList := by
    rw [String.toList_append]
    exact indented_line hsolid []
  have hline : memberBlock (key, .text value) = (key ++ ": " ++ written value ++ "\n").toList := by
    rw [memberBlock, block, hscalar, hstays]
    · simp only [String.toList_append, List.append_assoc]
      rfl
    · nofun
    · nofun
  rw [hline]
  exact singleton (hsolid.append hkeyed)

theorem memberTrue : AreLines (memberBlock (key, .flag true)) [key ++ ": true"] := by
  have hline : memberBlock (key, .flag true) = (key ++ ": true" ++ "\n").toList := by
    rw [memberBlock, String.toList_append, String.toList_append, List.append_assoc]
    · rfl
    · nofun
    · nofun
  rw [hline]
  exact singleton (IsSolid.append hkey (by decide))

theorem memberList {x : Yaml} {xs : List Yaml} (h : AreLines (Yaml.list (x :: xs)).block ls) :
    AreLines (memberBlock (key, Yaml.list (x :: xs))) ((key ++ ":") :: ls) := by
  refine ⟨?_, nofun, List.forall_mem_cons.2 ⟨solid_key hkey, h.solid⟩⟩
  rw [memberBlock, h.eq, Text.toList_ofLines_cons, String.toList_append, List.append_assoc]
  rfl

theorem memberMap {m : String × Yaml} {ms : List (String × Yaml)}
    (h : AreLines (Yaml.map (m :: ms)).block ls) :
    AreLines (memberBlock (key, Yaml.map (m :: ms))) ((key ++ ":") :: ls.map inset) := by
  refine ⟨?_, nofun, List.forall_mem_cons.2 ⟨solid_key hkey, solid_inset h.solid⟩⟩
  rw [memberBlock, h.eq, indented_ofLines h.solid, Text.toList_ofLines_cons, String.toList_append,
    List.append_assoc]
  rfl

end AreLines

end ServiceRegistry.Yaml
