/-
  ServiceRegistry.Text.Segments

  Cutting text at a separator. A text with `n` separators has `n + 1` segments, none of
  which contains the separator, and joining the segments gives the text back.
-/

namespace ServiceRegistry.Text

/-- The segments between occurrences of `sep`. -/
def cutAt (sep : Char) : List Char → List (List Char)
  | [] => [[]]
  | c :: cs =>
    if c = sep then [] :: cutAt sep cs
    else match cutAt sep cs with
      | [] => [[c]]
      | s :: ss => (c :: s) :: ss

theorem cutAt_ne_nil (sep : Char) (cs : List Char) : cutAt sep cs ≠ [] := by
  cases cs with
  | nil => simp [cutAt]
  | cons c cs => simp only [cutAt]; split <;> (try split) <;> simp

theorem cutAt_cons_self (sep : Char) (cs : List Char) :
    cutAt sep (sep :: cs) = [] :: cutAt sep cs := by
  simp [cutAt]

theorem cutAt_cons_of_ne {sep c : Char} (h : c ≠ sep) (cs : List Char) :
    ∃ s ss, cutAt sep cs = s :: ss ∧ cutAt sep (c :: cs) = (c :: s) :: ss := by
  cases hc : cutAt sep cs with
  | nil => exact absurd hc (cutAt_ne_nil sep cs)
  | cons s ss => exact ⟨s, ss, rfl, by simp [cutAt, h, hc]⟩

/-- There is one segment more than there are separators. -/
theorem length_cutAt (sep : Char) (cs : List Char) : (cutAt sep cs).length = cs.count sep + 1 := by
  induction cs with
  | nil => rfl
  | cons c cs ih =>
    by_cases h : c = sep
    · subst h
      rw [cutAt_cons_self, List.length_cons, ih, List.count_cons_self]
    · obtain ⟨s, ss, hcs, hc⟩ := cutAt_cons_of_ne h cs
      rw [hc, List.count_cons_of_ne (by simpa using h), ← ih, hcs]
      rfl

/-- No segment contains the separator. -/
theorem sep_not_mem_of_mem_cutAt {sep : Char} {cs s : List Char} (h : s ∈ cutAt sep cs) :
    sep ∉ s := by
  induction cs generalizing s with
  | nil => simp_all [cutAt]
  | cons c cs ih =>
    by_cases hc : c = sep
    · subst hc
      rw [cutAt_cons_self] at h
      rcases List.mem_cons.1 h with rfl | h
      · simp
      · exact ih h
    · obtain ⟨t, ts, hcs, ht⟩ := cutAt_cons_of_ne hc cs
      rw [ht] at h
      rw [hcs] at ih
      rcases List.mem_cons.1 h with rfl | h
      · have := ih (List.mem_cons_self)
        simp [this, Ne.symm hc]
      · exact ih (List.mem_cons_of_mem _ h)

/-- Nothing is lost by cutting. -/
theorem intercalate_cutAt (sep : Char) (cs : List Char) :
    [sep].intercalate (cutAt sep cs) = cs := by
  induction cs with
  | nil => rfl
  | cons c cs ih =>
    by_cases h : c = sep
    · subst h
      rw [cutAt_cons_self]
      cases hc : cutAt c cs with
      | nil => exact absurd hc (cutAt_ne_nil c cs)
      | cons s ss => rw [hc] at ih; simp [← ih, List.intercalate, List.intersperse]
    · obtain ⟨s, ss, hcs, hc⟩ := cutAt_cons_of_ne h cs
      rw [hcs] at ih
      rw [hc, ← ih]
      cases ss <;> simp [List.intercalate, List.intersperse]

/-- The segments of a text between occurrences of `sep`. -/
def segments (sep : Char) (text : String) : List String :=
  (cutAt sep text.toList).map String.ofList

/-- The part of a text before the first `sep`, or the whole text. -/
def before (sep : Char) (text : String) : String :=
  String.ofList (text.toList.takeWhile (· ≠ sep))

/-- Cuts a text at its last `sep`; `none` when there is none. -/
def cutLast? (sep : Char) (text : String) : Option (String × String) :=
  let back := text.toList.reverse
  match back.dropWhile (· ≠ sep) with
  | [] => none
  | _ :: front =>
    some (String.ofList front.reverse, String.ofList (back.takeWhile (· ≠ sep)).reverse)

/-- What remains of a text after a given beginning. -/
def dropBeginning? (beginning text : String) : Option String :=
  if beginning.toList.isPrefixOf text.toList then
    some (String.ofList (text.toList.drop beginning.toList.length))
  else none

/-- What remains of a text before a given end. -/
def dropEnding? (ending text : String) : Option String :=
  if ending.toList.isSuffixOf text.toList then
    some (String.ofList (text.toList.take (text.toList.length - ending.toList.length)))
  else none

/-- The text occurs somewhere in a list of characters. -/
def occursIn (part : List Char) : List Char → Bool
  | [] => part.isEmpty
  | c :: cs => part.isPrefixOf (c :: cs) || occursIn part cs

/-- Removes every trailing occurrence of a character. -/
def trimEnd (c : Char) (text : String) : String :=
  String.ofList (text.toList.reverse.dropWhile (· = c)).reverse

/-! ## Lines -/

/-- One line without the carriage return that may end it. -/
def dropReturn (line : List Char) : List Char :=
  if line.getLast? = some '\r' then line.dropLast else line

/-- The lines of a text: each ends at a line feed, with an optional carriage return
before it; text after the last line feed is a line only if it is not empty. -/
def lines (text : String) : List String :=
  let pieces := cutAt '\n' text.toList
  let closed := pieces.dropLast.map fun p => String.ofList (dropReturn p)
  match pieces.getLast? with
  | some [] | none => closed
  | some p => closed ++ [String.ofList p]

end ServiceRegistry.Text
