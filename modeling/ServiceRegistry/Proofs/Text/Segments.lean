/-
  ServiceRegistry.Proofs.Text.Segments

  Cutting text undoes joining. The segments of a text are the one way to write it as texts
  without the separator joined by it (`segments_eq_iff`), and those of two texts joined are those
  of the one followed by those of the other. What remains after a beginning or before an ending
  is what a text is joined from with it, and what is left of a text when a character is trimmed
  from its end is the text before the character's last row.
-/
import Mathlib.Data.List.DropRight
import ServiceRegistry.Text.Segments

namespace ServiceRegistry.Text

theorem cutAt_eq_splitOn (sep : Char) (cs : List Char) : cutAt sep cs = cs.splitOn sep := by
  induction cs with
  | nil => rfl
  | cons c cs ih =>
    rw [List.splitOn_cons_eq_if_modifyHead, ← ih]
    by_cases hc : c = sep
    · rw [if_pos (beq_iff_eq.2 hc), hc, cutAt_cons_self]
    · obtain ⟨s, ss, hcs, hcut⟩ := cutAt_cons_of_ne hc cs
      rw [if_neg (mt beq_iff_eq.1 hc), hcut, hcs, List.modifyHead_cons]

section

variable {sep : Char} {text : String}

theorem length_segments : (segments sep text).length = text.toList.count sep + 1 := by
  rw [segments, List.length_map, length_cutAt]

theorem not_mem_of_mem_segments {s : String} (h : s ∈ segments sep text) : sep ∉ s.toList := by
  obtain ⟨cs, hcs, rfl⟩ := List.mem_map.1 h
  rw [String.toList_ofList]
  exact sep_not_mem_of_mem_cutAt hcs

theorem intercalate_segments :
    (String.singleton sep).intercalate (segments sep text) = text := by
  have htoList : String.toList ∘ String.ofList = id := funext fun _ => String.toList_ofList
  rw [← String.toList_inj, String.toList_intercalate, segments, List.map_map, htoList, List.map_id,
    String.toList_singleton, intercalate_cutAt]

/-- The segments of a text are the texts without the separator that it is joined from. -/
theorem segments_eq_iff {ss : List String} :
    segments sep text = ss ↔
      ss ≠ [] ∧ (∀ s ∈ ss, sep ∉ s.toList) ∧ (String.singleton sep).intercalate ss = text := by
  constructor
  · rintro rfl
    refine ⟨?_, fun s => not_mem_of_mem_segments, intercalate_segments⟩
    rw [segments, Ne, List.map_eq_nil_iff]
    exact cutAt_ne_nil sep _
  · rintro ⟨hne, hfree, rfl⟩
    have hofList : String.ofList ∘ String.toList = id := funext fun _ => String.ofList_toList
    have hcut : (ss.map String.toList) = cutAt sep ([sep].intercalate (ss.map String.toList)) := by
      rw [cutAt_eq_splitOn, List.splitOn_intercalate sep]
      · rintro cs hcs
        obtain ⟨s, hs, rfl⟩ := List.mem_map.1 hcs
        exact hfree s hs
      · rwa [Ne, List.map_eq_nil_iff]
    rw [segments, String.toList_intercalate, String.toList_singleton, ← hcut, List.map_map,
      hofList, List.map_id]

theorem segments_append (before after : String) :
    segments sep (before ++ String.singleton sep ++ after) =
      segments sep before ++ segments sep after := by
  simp only [segments, String.toList_append, String.toList_singleton, List.append_assoc,
    List.cons_append, List.nil_append, cutAt_eq_splitOn, List.splitOn_append_cons_self,
    List.map_append]

end

/-! ## Beginnings and endings -/

theorem dropBeginning?_eq_some_iff {beginning text rest : String} :
    dropBeginning? beginning text = some rest ↔ text = beginning ++ rest := by
  rw [dropBeginning?, ← String.toList_inj, String.toList_append]
  constructor
  · intro h
    split at h
    case isTrue hbegins =>
      obtain ⟨cs, hcs⟩ := List.isPrefixOf_iff_prefix.1 hbegins
      rw [← hcs, List.drop_left] at h
      rw [← Option.some.inj h, String.toList_ofList, hcs]
    case isFalse => cases h
  · intro h
    have hbegins : beginning.toList.isPrefixOf text.toList = true :=
      List.isPrefixOf_iff_prefix.2 ⟨rest.toList, h.symm⟩
    rw [if_pos hbegins, h, List.drop_left, String.ofList_toList]

theorem dropEnding?_eq_some_iff {ending text rest : String} :
    dropEnding? ending text = some rest ↔ text = rest ++ ending := by
  rw [dropEnding?, ← String.toList_inj, String.toList_append]
  constructor
  · intro h
    split at h
    case isTrue hends =>
      obtain ⟨cs, hcs⟩ := List.isSuffixOf_iff_suffix.1 hends
      rw [← hcs, List.length_append, Nat.add_sub_cancel, List.take_left] at h
      rw [← Option.some.inj h, String.toList_ofList, hcs]
    case isFalse => cases h
  · intro h
    have hends : ending.toList.isSuffixOf text.toList = true :=
      List.isSuffixOf_iff_suffix.2 ⟨rest.toList, h.symm⟩
    rw [if_pos hends, h, List.length_append, Nat.add_sub_cancel, List.take_left,
      String.ofList_toList]

/-! ## Parts and trimmed ends -/

theorem occursIn_iff {part cs : List Char} : occursIn part cs = true ↔ part <:+: cs := by
  induction cs with
  | nil => rw [occursIn, List.isEmpty_iff, List.infix_nil]
  | cons c cs ih =>
    rw [occursIn, Bool.or_eq_true, ih, List.isPrefixOf_iff_prefix, List.infix_cons_iff]

theorem toList_trimEnd (c : Char) (text : String) :
    (trimEnd c text).toList = text.toList.rdropWhile (· = c) := by
  rw [trimEnd, String.toList_ofList, List.rdropWhile]

theorem trimEnd_eq_self_iff {c : Char} {text : String} :
    trimEnd c text = text ↔ text.toList.getLast? ≠ some c := by
  rw [← String.toList_inj, toList_trimEnd, List.rdropWhile_eq_self_iff]
  by_cases hnil : text.toList = []
  · simp [hnil]
  · rw [List.getLast?_eq_some_getLast hnil]
    simp [hnil]

/-- As many times as a character is put at the end of a text. -/
theorem trimEnd_append_replicate {c : Char} {text : String}
    (h : text.toList.getLast? ≠ some c) (n : Nat) :
    trimEnd c (text ++ String.ofList (List.replicate n c)) = text := by
  rw [← String.toList_inj, toList_trimEnd, String.toList_append, String.toList_ofList]
  induction n with
  | zero =>
    rw [List.replicate_zero, List.append_nil, ← toList_trimEnd, trimEnd_eq_self_iff.2 h]
  | succ n ih =>
    rw [List.replicate_succ', ← List.append_assoc, List.rdropWhile_concat_pos _ _ _ (by simp)]
    exact ih

end ServiceRegistry.Text
