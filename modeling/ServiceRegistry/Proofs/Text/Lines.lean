/-
  ServiceRegistry.Proofs.Text.Lines

  Lines put together and taken apart. Lines of which each is ended are the lines of what they
  make up (`lines_ofLines`). Put behind another text they are further lines of it exactly if that
  text ends its last line (`lines_append_ofLines_iff`); else the first of them goes on with the
  last line of the text, so that there is one line less than there should be.
-/
import ServiceRegistry.Proofs.Text.Segments

namespace ServiceRegistry.Text

/-- The text of some lines, each with its end. -/
def ofLines (lines : List String) : String := String.join (lines.map (· ++ "\n"))

/-- A text that is one line when it is ended: a carriage return before the end would be taken for
    a part of it. -/
structure IsLine (text : String) : Prop where
  no_feed : '\n' ∉ text.toList
  no_return : text.toList.getLast? ≠ some '\r'

instance (text : String) : Decidable (IsLine text) :=
  decidable_of_iff ('\n' ∉ text.toList ∧ text.toList.getLast? ≠ some '\r')
    ⟨fun h => ⟨h.1, h.2⟩, fun h => ⟨h.no_feed, h.no_return⟩⟩

/-- What is put behind the text begins a new line. -/
def EndsLine (text : String) : Prop := text = "" ∨ text.toList.getLast? = some '\n'

instance (text : String) : Decidable (EndsLine text) :=
  inferInstanceAs (Decidable (_ ∨ _))

/-! ## Cutting -/

theorem cutAt_append (sep : Char) (before after : List Char) :
    cutAt sep (before ++ sep :: after) = cutAt sep before ++ cutAt sep after := by
  simp only [cutAt_eq_splitOn, List.splitOn_append_cons_self]

theorem cutAt_of_not_mem {sep : Char} {cs : List Char} (h : sep ∉ cs) : cutAt sep cs = [cs] := by
  have hlength : (cutAt sep cs).length = 1 := by
    rw [length_cutAt, List.count_eq_zero.2 h]
  obtain ⟨s, hs⟩ := List.length_eq_one_iff.1 hlength
  have hjoined := intercalate_cutAt sep cs
  rw [hs, List.intercalate_singleton] at hjoined
  rw [hs, hjoined]

theorem mem_of_mem_cutAt {sep c : Char} {cs s : List Char} (hs : s ∈ cutAt sep cs) (hc : c ∈ s) :
    c ∈ cs := by
  induction cs generalizing s with
  | nil =>
    rw [List.mem_singleton.1 hs] at hc
    cases hc
  | cons d cs ih =>
    by_cases hd : d = sep
    · subst hd
      rw [cutAt_cons_self] at hs
      rcases List.mem_cons.1 hs with rfl | hs
      · cases hc
      · exact List.mem_cons_of_mem d (ih hs hc)
    · obtain ⟨t, ts, hcut, hcons⟩ := cutAt_cons_of_ne hd cs
      rw [hcons] at hs
      rw [hcut] at ih
      rcases List.mem_cons.1 hs with rfl | hs
      · rcases List.mem_cons.1 hc with rfl | hc
        · exact List.mem_cons_self
        · exact List.mem_cons_of_mem d (ih List.mem_cons_self hc)
      · exact List.mem_cons_of_mem d (ih (List.mem_cons_of_mem t hs) hc)

/-- The last piece goes on to the end. -/
theorem exists_getLast?_cutAt {sep c : Char} (h : c ≠ sep) (cs : List Char) :
    ∃ s, (cutAt sep (cs ++ [c])).getLast? = some (s ++ [c]) := by
  induction cs with
  | nil => exact ⟨[], by rw [List.nil_append, cutAt_of_not_mem (by simpa using h.symm)]; rfl⟩
  | cons d cs ih =>
    obtain ⟨s, hs⟩ := ih
    by_cases hd : d = sep
    · refine ⟨s, ?_⟩
      rw [hd, List.cons_append, cutAt_cons_self, List.getLast?_cons, hs]
      rfl
    · obtain ⟨t, ts, hcut, hcons⟩ := cutAt_cons_of_ne hd (cs ++ [c])
      rw [hcut, List.getLast?_cons] at hs
      rw [List.cons_append, hcons, List.getLast?_cons]
      cases hlast : ts.getLast? with
      | none =>
        rw [hlast, Option.getD_none, Option.some.injEq] at hs
        exact ⟨d :: s, by rw [Option.getD_none, hs, List.cons_append]⟩
      | some last =>
        rw [hlast, Option.getD_some, Option.some.injEq] at hs
        exact ⟨s, by rw [Option.getD_some, hs]⟩

/-! ## Lines -/

theorem dropReturn_of_ne {cs : List Char} (h : cs.getLast? ≠ some '\r') : dropReturn cs = cs :=
  if_neg h

/-- Lines that are ended, without their ends. -/
theorem lines_ended (text : String) :
    lines (text ++ "\n") = (cutAt '\n' text.toList).map fun p => String.ofList (dropReturn p) := by
  have hcut : cutAt '\n' (text ++ "\n").toList = cutAt '\n' text.toList ++ [[]] := by
    rw [String.toList_append]
    exact cutAt_append '\n' text.toList []
  simp only [lines, hcut, List.dropLast_concat, List.getLast?_concat]

theorem lines_append_ended (before after : String) :
    lines (before ++ "\n" ++ after) = lines (before ++ "\n") ++ lines after := by
  have hcut : cutAt '\n' (before ++ "\n" ++ after).toList
      = cutAt '\n' before.toList ++ cutAt '\n' after.toList := by
    rw [String.toList_append, String.toList_append, List.append_assoc]
    exact cutAt_append '\n' before.toList after.toList
  have hne : cutAt '\n' after.toList ≠ [] := cutAt_ne_nil '\n' after.toList
  rw [lines_ended]
  simp only [lines, hcut, List.dropLast_append_of_ne_nil hne, List.map_append,
    List.getLast?_append_of_ne_nil _ hne]
  split <;> simp only [List.append_assoc]

theorem IsLine.lines_eq {line : String} (h : IsLine line) : lines (line ++ "\n") = [line] := by
  rw [lines_ended, cutAt_of_not_mem h.no_feed, List.map_singleton, dropReturn,
    if_neg h.no_return, String.ofList_toList]

theorem IsLine.append {first line : String} (h : IsLine line) (hfirst : IsLine first) :
    IsLine (first ++ line) where
  no_feed := by
    rw [String.toList_append, List.mem_append, not_or]
    exact ⟨hfirst.no_feed, h.no_feed⟩
  no_return := by
    rw [String.toList_append, List.getLast?_append]
    cases hlast : line.toList.getLast? with
    | none => exact hfirst.no_return
    | some c =>
      rw [Option.some_or, ← hlast]
      exact h.no_return

theorem isLine_of_mem_lines {text line : String} (h : '\r' ∉ text.toList)
    (hline : line ∈ lines text) : IsLine line := by
  -- There is no carriage return to be dropped, so a line is a piece of the text.
  have hkept : ∀ p ∈ cutAt '\n' text.toList, dropReturn p = p := fun p hp =>
    dropReturn_of_ne fun hlast => h (mem_of_mem_cutAt hp (List.mem_of_getLast? hlast))
  have hclosed : line ∈ (cutAt '\n' text.toList).dropLast.map
      (fun p => String.ofList (dropReturn p)) → line.toList ∈ cutAt '\n' text.toList := by
    intro hmem
    obtain ⟨p, hp, rfl⟩ := List.mem_map.1 hmem
    have hp := (List.dropLast_sublist _).subset hp
    rwa [hkept p hp, String.toList_ofList]
  have hpiece : line.toList ∈ cutAt '\n' text.toList := by
    simp only [lines] at hline
    split at hline
    case h_3 p _ hlast =>
      rcases List.mem_append.1 hline with hmem | hmem
      · exact hclosed hmem
      · rw [List.mem_singleton.1 hmem, String.toList_ofList]
        exact List.mem_of_getLast? hlast
    all_goals exact hclosed hline
  exact ⟨sep_not_mem_of_mem_cutAt hpiece, fun hlast =>
    h (mem_of_mem_cutAt hpiece (List.mem_of_getLast? hlast))⟩

/-! ## Lines put together -/

@[simp] theorem ofLines_nil : ofLines [] = "" := rfl

@[simp] theorem ofLines_cons (line : String) (ls : List String) :
    ofLines (line :: ls) = line ++ "\n" ++ ofLines ls := by
  rw [ofLines, List.map_cons, String.join_cons]
  rfl

theorem toList_ofLines_cons (line : String) (ls : List String) :
    (ofLines (line :: ls)).toList = line.toList ++ '\n' :: (ofLines ls).toList := by
  rw [ofLines_cons, String.toList_append, String.toList_append, List.append_assoc]
  rfl

theorem toList_ofLines (ls : List String) :
    (ofLines ls).toList = ls.flatMap fun line => line.toList ++ ['\n'] := by
  induction ls with
  | nil => rfl
  | cons l ls ih =>
    rw [toList_ofLines_cons, ih, List.flatMap_cons, List.append_assoc, List.singleton_append]

theorem lines_ofLines {ls : List String} (h : ∀ l ∈ ls, IsLine l) : lines (ofLines ls) = ls := by
  induction ls with
  | nil => decide
  | cons l ls ih =>
    obtain ⟨hl, hls⟩ := List.forall_mem_cons.1 h
    rw [ofLines_cons, lines_append_ended, hl.lines_eq, ih hls, List.singleton_append]

/-! ## Lines behind a text -/

/-- As many lines as line feeds, and the one that is not ended. -/
theorem length_lines_of_not_endsLine {text : String} (h : ¬ EndsLine text) :
    (lines text).length = text.toList.count '\n' + 1 := by
  obtain ⟨hempty, hfeed⟩ := not_or.1 h
  have hne : text.toList ≠ [] := mt String.toList_eq_nil_iff.1 hempty
  obtain ⟨cs, c, hcs⟩ : ∃ cs c, text.toList = cs ++ [c] :=
    ⟨_, _, (List.dropLast_append_getLast hne).symm⟩
  have hc : c ≠ '\n' := by
    rintro rfl
    rw [hcs, List.getLast?_concat] at hfeed
    exact hfeed rfl
  obtain ⟨s, hs⟩ := exists_getLast?_cutAt hc cs
  have hlength := length_cutAt '\n' text.toList
  have hpos : 0 < (cutAt '\n' text.toList).length := List.length_pos_iff.2 (cutAt_ne_nil _ _)
  simp only [lines, hcs, hs] at hlength hpos ⊢
  split
  case h_1 heq => simp at heq
  case h_2 heq => simp at heq
  case h_3 =>
    rw [List.length_append, List.length_map, List.length_dropLast, List.length_singleton]
    omega

theorem eq_append_of_getLast? {text : String} (h : text.toList.getLast? = some '\n') :
    ∃ front, text = front ++ "\n" := by
  obtain ⟨cs, hcs⟩ := List.getLast?_eq_some_iff.1 h
  refine ⟨String.ofList cs, ?_⟩
  rw [← String.toList_inj, hcs, String.toList_append, String.toList_ofList]
  rfl

theorem lines_ne_nil {text : String} (h : text ≠ "") : lines text ≠ [] := by
  by_cases hends : EndsLine text
  · obtain ⟨front, rfl⟩ := eq_append_of_getLast? (hends.resolve_left h)
    rw [lines_ended, Ne, List.map_eq_nil_iff]
    exact cutAt_ne_nil '\n' front.toList
  · rw [← List.length_pos_iff, length_lines_of_not_endsLine hends]
    exact Nat.succ_pos _

theorem lines_append_of_endsLine {text : String} (h : EndsLine text) (after : String) :
    lines (text ++ after) = lines text ++ lines after := by
  rcases h with rfl | hfeed
  · rw [String.empty_append]
    rfl
  · obtain ⟨front, rfl⟩ := eq_append_of_getLast? hfeed
    rw [lines_append_ended]

theorem lines_append_ofLines_iff {text : String} {ls : List String} (hls : ∀ l ∈ ls, IsLine l)
    (hne : ls ≠ []) : lines (text ++ ofLines ls) = lines text ++ ls ↔ EndsLine text := by
  constructor
  · intro heq
    by_contra hopen
    -- The last line of the text and the first of the others have become one.
    obtain ⟨l, ls, rfl⟩ := List.exists_cons_of_ne_nil hne
    obtain ⟨hl, hls⟩ := List.forall_mem_cons.1 hls
    have hlength := congrArg List.length heq
    rw [ofLines_cons, ← String.append_assoc, ← String.append_assoc, lines_append_ended, lines_ended,
      lines_ofLines hls, List.length_append, List.length_map, length_cutAt, String.toList_append,
      List.count_append, List.count_eq_zero.2 hl.no_feed, List.length_append,
      length_lines_of_not_endsLine hopen, List.length_cons] at hlength
    omega
  · intro h
    rw [lines_append_of_endsLine h, lines_ofLines hls]

end ServiceRegistry.Text
