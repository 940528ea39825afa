/-
  ServiceRegistry.Proofs.Yaml.Scalar

  Lines of scalars. Double quotes escape all that ends a line, so no carriage return is ever
  written (`return_not_mem_scalar`), and a text without line breaks stands on one line
  (`scalar_of_unbroken`).
-/
import ServiceRegistry.Proofs.Text.Digits
import ServiceRegistry.Proofs.Text.Lines
import ServiceRegistry.Yaml.Scalar

namespace ServiceRegistry.Yaml

/-- Nothing in the text ends a line. -/
def IsUnbroken (text : String) : Prop := ∀ c ∈ text.toList, isBreak c = false

-- Named, since what is inferred may go through all of `Char` instead of the text.
instance (text : String) : Decidable (IsUnbroken text) :=
  List.decidableBAll (isBreak · = false) text.toList

/-- There is something on the line, and it ends nowhere in between. -/
structure IsSolid (line : String) : Prop where
  ne_empty : line ≠ ""
  unbroken : IsUnbroken line

instance (line : String) : Decidable (IsSolid line) :=
  decidable_of_iff (line ≠ "" ∧ IsUnbroken line)
    ⟨fun h => ⟨h.1, h.2⟩, fun h => ⟨h.ne_empty, h.unbroken⟩⟩

theorem IsUnbroken.append {first second : String} (hfirst : IsUnbroken first)
    (hsecond : IsUnbroken second) : IsUnbroken (first ++ second) := by
  intro c hc
  rw [String.toList_append] at hc
  exact (List.mem_append.1 hc).elim (hfirst c) (hsecond c)

/-- A text as a scalar, without the end of its last line. -/
def written (text : String) : String := String.ofList (scalar text).dropLast

/-! ## Escapes -/

theorem isSome_lookup_of_isBreak {c : Char} (h : isBreak c = true) :
    (escapeLetters.lookup c).isSome = true := by
  simp only [isBreak, Bool.or_eq_true, beq_iff_eq] at h
  rcases h with (((rfl | rfl) | rfl) | rfl) | rfl <;> rfl

theorem mem_escapeLetters_of_lookup {c letter : Char} (h : escapeLetters.lookup c = some letter) :
    (c, letter) ∈ escapeLetters := by
  obtain ⟨before, after, heq, -⟩ := List.lookup_eq_some_iff.1 h
  rw [heq]
  exact List.mem_append_right before List.mem_cons_self

theorem isBreak_of_mem_paddedHex {digits n : Nat} {c : Char} (h : c ∈ paddedHex digits n) :
    isBreak c = false := by
  rw [paddedHex, List.mem_append] at h
  rcases h with h | h
  · rw [List.eq_of_mem_replicate h]
    rfl
  · obtain ⟨d, hd, rfl⟩ := List.mem_map.1 h
    obtain ⟨k, hk, rfl⟩ := Text.exists_digitChar_of_mem (by decide) n hd
    exact (by decide : ∀ k < 16, isBreak (Nat.digitChar k).toUpper = false) k hk

/-- Whatever the character is, nothing that ends a line is written for it. -/
theorem isBreak_of_mem_escapedChar {c d : Char} (h : d ∈ escapedChar c) : isBreak d = false := by
  unfold escapedChar at h
  split at h
  case h_1 letter hletter =>
    have hletters : ∀ p ∈ escapeLetters, isBreak p.2 = false := by decide
    rcases List.mem_cons.1 h with rfl | h
    · rfl
    · rw [List.mem_singleton.1 h]
      exact hletters _ (mem_escapeLetters_of_lookup hletter)
  case h_2 hnone =>
    split at h
    · rw [List.mem_singleton.1 h]
      refine Bool.eq_false_iff.2 fun hbreak => ?_
      have hsome := isSome_lookup_of_isBreak hbreak
      rw [hnone] at hsome
      cases hsome
    · have hhex : ∀ mark digits, isBreak mark = false →
          d ∈ '\\' :: mark :: paddedHex digits c.toNat → isBreak d = false := by
        intro mark digits hmark hd
        rcases List.mem_cons.1 hd with rfl | hd
        · rfl
        · rcases List.mem_cons.1 hd with rfl | hd
          · exact hmark
          · exact isBreak_of_mem_paddedHex hd
      split at h
      · exact hhex 'x' 2 rfl h
      · split at h
        · exact hhex 'u' 4 rfl h
        · exact hhex 'U' 8 rfl h

/-! ## Styles -/

section

variable {text : String}

theorem needsEscapes_of_styleOf (h : styleOf text ≠ .double) :
    needsEscapes text.toList = false := by
  rw [← Bool.not_eq_true]
  intro hneeds
  refine h ?_
  simp only [styleOf, hneeds, Bool.true_or, if_true, ite_self]

theorem return_not_mem_of_styleOf (h : styleOf text ≠ .double) : '\r' ∉ text.toList := by
  intro hmem
  have hneeds := needsEscapes_of_styleOf h
  rw [needsEscapes, Bool.or_eq_false_iff, List.any_eq_false] at hneeds
  exact hneeds.1 '\r' hmem rfl

theorem feed_mem_of_literal (h : styleOf text = .literal) : '\n' ∈ text.toList := by
  by_contra hfeed
  have hnone : ¬ text.toList.contains '\n' = true := mt List.contains_iff_mem.1 hfeed
  unfold styleOf at h
  dsimp only at h
  rw [if_neg hnone] at h
  split at h
  · split at h <;> cases h
  · split at h <;> cases h

theorem ne_empty_of_plain (h : styleOf text = .plain) : text ≠ "" := by
  rintro rfl
  revert h
  decide

/-! ## Writing -/

/-- Apart from a literal block a scalar is one line, unless the text itself breaks it. -/
theorem exists_scalar_eq (h : styleOf text ≠ .literal) :
    ∃ body, scalar text = body ++ ['\n'] ∧ body ≠ [] ∧
      ∀ c ∈ body, (c ∈ text.toList ∧ styleOf text ≠ .double) ∨ isBreak c = false := by
  unfold scalar
  cases hstyle : styleOf text with
  | plain =>
    refine ⟨text.toList, rfl, mt String.toList_eq_nil_iff.1 (ne_empty_of_plain hstyle), ?_⟩
    exact fun c hc => .inl ⟨hc, nofun⟩
  | single =>
    refine ⟨'\'' :: text.toList.flatMap (fun c => if c = '\'' then ['\'', '\''] else [c]) ++ ['\''],
      by simp, nofun, fun c hc => ?_⟩
    simp only [List.cons_append, List.mem_cons, List.mem_append, List.mem_flatMap] at hc
    rcases hc with rfl | ⟨d, hd, hc⟩ | rfl | hnone
    · exact .inr rfl
    · split at hc
      · refine .inr ?_
        simp only [List.mem_cons, List.not_mem_nil, or_false, or_self] at hc
        rw [hc]
        rfl
      · rw [List.mem_singleton.1 hc]
        exact .inl ⟨hd, nofun⟩
    · exact .inr rfl
    · cases hnone
  | double =>
    refine ⟨'"' :: text.toList.flatMap escapedChar ++ ['"'], by simp, nofun, fun c hc => .inr ?_⟩
    simp only [List.cons_append, List.mem_cons, List.mem_append, List.mem_flatMap] at hc
    rcases hc with rfl | ⟨d, -, hc⟩ | rfl | hnone
    · rfl
    · exact isBreak_of_mem_escapedChar hc
    · rfl
    · cases hnone
  | literal => exact absurd hstyle h

theorem return_not_mem_literal {cs : List Char} (h : '\r' ∉ cs) :
    '\r' ∉ literalHead cs ++ '\n' :: endLine cs := by
  have hchomping : '\r' ∉ chomping cs := by
    unfold chomping
    repeat' split
    all_goals decide
  have hend : '\r' ∉ endLine cs := by
    unfold endLine
    split
    · exact h
    · rw [List.mem_append, not_or]
      exact ⟨h, by decide⟩
  have hhead : '\r' ∉ literalHead cs := by
    unfold literalHead
    dsimp only
    split
    all_goals simp [hchomping]
  simp [hhead, hend]

/-- No carriage return is written, for any text. -/
theorem return_not_mem_scalar (text : String) : '\r' ∉ scalar text := by
  by_cases hliteral : styleOf text = .literal
  · have hfree : '\r' ∉ text.toList := return_not_mem_of_styleOf (by rw [hliteral]; nofun)
    unfold scalar
    rw [hliteral]
    exact return_not_mem_literal hfree
  · obtain ⟨body, heq, -, hbody⟩ := exists_scalar_eq hliteral
    rw [heq, List.mem_append, not_or]
    refine ⟨fun hmem => ?_, by decide⟩
    rcases hbody _ hmem with ⟨htext, hstyle⟩ | hbreak
    · exact return_not_mem_of_styleOf hstyle htext
    · cases hbreak

/-- A text without line breaks stands on one line. -/
theorem scalar_of_unbroken (h : IsUnbroken text) :
    IsSolid (written text) ∧ scalar text = (written text ++ "\n").toList := by
  have hliteral : styleOf text ≠ .literal := fun hstyle => by
    cases h _ (feed_mem_of_literal hstyle)
  obtain ⟨body, heq, hne, hbody⟩ := exists_scalar_eq hliteral
  have hwritten : written text = String.ofList body := by rw [written, heq, List.dropLast_concat]
  rw [hwritten, String.toList_append, String.toList_ofList]
  refine ⟨⟨fun hempty => hne ?_, fun c hc => ?_⟩, heq⟩
  · rw [← String.toList_ofList (l := body), hempty]
    rfl
  · rw [String.toList_ofList] at hc
    exact (hbody c hc).elim (fun htext => h c htext.1) id

end

end ServiceRegistry.Yaml
