/-
  ServiceRegistry.Proofs.Client.Origin

  What becomes of the address of a registry, however it is spelt: with or without a scheme, with
  or without a port, and with any number of slashes at its end. With a scheme the slashes are
  trimmed. Without one they stay, before the default port or at the end, so that the slashes make
  a difference (`registryUrl_eq_origin_iff`), and calls go to another path.
-/
import ServiceRegistry.Client.Registry
import ServiceRegistry.Proofs.Text.Segments

namespace ServiceRegistry.Client

/-! ## Spellings -/

/-- An address as it is spelt: perhaps a scheme, a host, perhaps a port, and slashes. -/
structure Spelling where
  scheme : Option String := none
  host : String
  port : Option String := none
  slashes : Nat := 0
  host_ne_empty : host ≠ "" := by decide
  host_bare : '/' ∉ host.toList ∧ ':' ∉ host.toList := by decide
  port_digits : ∀ p ∈ port, p ≠ "" ∧ p.toList.all Char.isDigit = true := by decide

namespace Spelling

/-- The address without the slashes at its end. -/
def stem (a : Spelling) : String :=
  (a.scheme.map (· ++ schemeMark)).getD "" ++ a.host ++ (a.port.map (":" ++ ·)).getD ""

/-- The slashes at the end. -/
def ending (a : Spelling) : String := String.ofList (List.replicate a.slashes '/')

/-- The address. -/
def text (a : Spelling) : String := a.stem ++ a.ending

/-- The host with the port. Nothing but a host is an address with the default port. -/
def authority (a : Spelling) : String :=
  match a.scheme, a.port with
  | _, some p => a.host ++ ":" ++ p
  | some _, none => a.host
  | none, none => a.host ++ ":" ++ toString defaultPort

/-- The address with its scheme and its authority and nothing else. -/
def origin (a : Spelling) : String := a.scheme.getD "http" ++ schemeMark ++ a.authority

section

variable (a : Spelling)

theorem slash_not_mem_authority : '/' ∉ a.authority.toList := by
  obtain ⟨hslash, -⟩ := a.host_bare
  unfold authority
  split
  case h_1 p hport =>
    intro hmem
    have hdigits := List.all_eq_true.1 (a.port_digits p hport).2
    simp only [String.toList_append, List.mem_append, hslash, false_or] at hmem
    rcases hmem with hcolon | hp
    · exact absurd hcolon (by decide)
    · exact absurd (hdigits '/' hp) (by decide)
  case h_2 => exact hslash
  case h_3 =>
    simp only [String.toList_append, List.mem_append, hslash, false_or]
    decide

theorem authority_ne_empty : a.authority ≠ "" := by
  have hhost := a.host_ne_empty
  unfold authority
  split <;> simp [String.append_eq_empty_iff, hhost]

theorem getLast?_origin : a.origin.toList.getLast? ≠ some '/' := by
  intro hlast
  have hne : a.authority.toList ≠ [] := mt String.toList_eq_nil_iff.1 a.authority_ne_empty
  rw [origin, String.toList_append, List.getLast?_append_of_ne_nil _ hne] at hlast
  exact a.slash_not_mem_authority (List.mem_of_getLast? hlast)

/-! ## Whether there is a scheme -/

theorem hasScheme_of_mark (first rest : String) :
    Text.occursIn schemeMark.toList (first ++ schemeMark ++ rest).toList = true := by
  rw [Text.occursIn_iff, String.toList_append, String.toList_append]
  exact List.infix_append ..

/-- Without a scheme a colon can only be the one before the port, which begins with a digit. -/
theorem hasScheme_text (h : a.scheme = none) :
    Text.occursIn schemeMark.toList a.text.toList = false := by
  obtain ⟨-, hcolon⟩ := a.host_bare
  have hslashes : ':' ∉ a.ending.toList := by
    rw [ending, String.toList_ofList]
    intro hmem
    exact absurd (List.eq_of_mem_replicate hmem) (by decide)
  rw [Bool.eq_false_iff, Ne, Text.occursIn_iff]
  rintro ⟨before, after, heq⟩
  have hmark : schemeMark.toList = [':', '/', '/'] := rfl
  cases hport : a.port with
  | none =>
    simp only [text, stem, h, hport, Option.map_none, Option.getD_none, String.empty_append,
      String.append_empty, String.toList_append] at heq
    have hmem : ':' ∈ a.host.toList ++ a.ending.toList := by
      rw [← heq, hmark]
      simp
    exact (List.mem_append.1 hmem).elim hcolon hslashes
  | some p =>
    obtain ⟨hne, hall⟩ := a.port_digits p hport
    have hdigits := List.all_eq_true.1 hall
    have hrest : ':' ∉ p.toList ++ a.ending.toList := by
      rw [List.mem_append, not_or]
      exact ⟨fun hmem => absurd (hdigits ':' hmem) (by decide), hslashes⟩
    have hone : ":".toList = [':'] := rfl
    simp only [text, stem, h, hport, Option.map_none, Option.getD_none, Option.map_some,
      Option.getD_some, String.empty_append, String.toList_append, hmark, hone, List.append_assoc,
      List.cons_append, List.nil_append] at heq
    -- The colon of the mark is the one before the port, so the port begins with a slash.
    rw [eq_comm, List.append_cons_inj_of_notMem hcolon hrest] at heq
    obtain ⟨-, -, htail⟩ := heq
    obtain ⟨d, ds, hp⟩ := List.exists_cons_of_ne_nil (mt String.toList_eq_nil_iff.1 hne)
    rw [hp, List.cons_append, List.cons.injEq] at htail
    have hdigit : d.isDigit = true := hdigits d (hp ▸ List.mem_cons_self)
    rw [htail.1] at hdigit
    exact absurd hdigit (by decide)

/-! ## What becomes of it -/

theorem registryUrl_of_scheme (h : a.scheme ≠ none) : registryUrl a.text = a.origin := by
  obtain ⟨scheme, hscheme⟩ := Option.ne_none_iff_exists'.1 h
  have hstem : a.stem = a.origin := by
    unfold stem origin authority
    cases a.port <;> simp [hscheme, String.append_assoc]
  have hmark : Text.occursIn schemeMark.toList a.text.toList = true := by
    rw [text, hstem, origin, String.append_assoc]
    exact hasScheme_of_mark _ _
  rw [registryUrl, if_pos hmark, text, hstem]
  exact Text.trimEnd_append_replicate a.getLast?_origin a.slashes

theorem registryUrl_of_port (h : a.scheme = none) {p : String} (hport : a.port = some p) :
    registryUrl a.text = a.origin ++ a.ending := by
  have hcolon : a.text.toList.contains ':' = true := by
    simp [text, stem, hport]
  rw [registryUrl, hasScheme_text a h, if_neg Bool.false_ne_true, if_pos hcolon]
  unfold text stem origin authority
  simp [h, hport, schemeMark, String.append_assoc]

theorem registryUrl_of_host (h : a.scheme = none) (hport : a.port = none) :
    registryUrl a.text = "http://" ++ a.host ++ a.ending ++ ":" ++ toString defaultPort := by
  obtain ⟨-, hcolon⟩ := a.host_bare
  have hnone : ¬ a.text.toList.contains ':' = true := by
    simp [text, stem, h, hport, ending, hcolon]
  rw [registryUrl, hasScheme_text a h, if_neg Bool.false_ne_true, if_neg hnone]
  simp [text, stem, h, hport, String.append_assoc]

theorem registryUrl_cases :
    (a.scheme ≠ none ∧ registryUrl a.text = a.origin) ∨
    (a.scheme = none ∧ a.port ≠ none ∧ registryUrl a.text = a.origin ++ a.ending) ∨
    (a.scheme = none ∧ a.port = none ∧
      registryUrl a.text = "http://" ++ a.host ++ a.ending ++ ":" ++ toString defaultPort) := by
  by_cases hscheme : a.scheme = none
  · right
    cases hport : a.port with
    | none => exact .inr ⟨hscheme, rfl, a.registryUrl_of_host hscheme hport⟩
    | some p => exact .inl ⟨hscheme, nofun, a.registryUrl_of_port hscheme hport⟩
  · exact .inl ⟨hscheme, a.registryUrl_of_scheme hscheme⟩

/-- Without slashes at its end every spelling leads to its origin. -/
theorem registryUrl_stem : registryUrl a.stem = a.origin := by
  let b : Spelling := { a with slashes := 0 }
  have hending : b.ending = "" := rfl
  have htext : b.text = a.stem := by
    rw [text, hending, String.append_empty]
    rfl
  have horigin : b.origin = a.origin := rfl
  rw [← htext, ← horigin]
  rcases b.registryUrl_cases with ⟨-, hurl⟩ | ⟨-, -, hurl⟩ | ⟨hscheme, hport, hurl⟩
  · exact hurl
  · rw [hurl, hending, String.append_empty]
  · rw [hurl, hending, origin, authority]
    simp [hscheme, hport, schemeMark, String.append_assoc]

/-- Where the slashes stay, they make the text longer. -/
theorem length_registryUrl (h : a.scheme = none) :
    (registryUrl a.text).length = a.origin.length + a.slashes := by
  have hending : a.ending.length = a.slashes := by
    rw [ending, String.length_ofList, List.length_replicate]
  rcases a.registryUrl_cases with ⟨hsome, -⟩ | ⟨-, -, hurl⟩ | ⟨-, hport, hurl⟩
  · exact absurd h hsome
  · rw [hurl, String.length_append, hending]
  · rw [hurl, origin, authority]
    simp only [h, hport, Option.getD_none, String.length_append, schemeMark]
    have hhttp : "http://".length = "http".length + "://".length := rfl
    omega

theorem registryUrl_eq_origin_iff :
    registryUrl a.text = a.origin ↔ a.scheme ≠ none ∨ a.slashes = 0 := by
  constructor
  · intro heq
    by_cases hscheme : a.scheme = none
    · have hlength := a.length_registryUrl hscheme
      rw [heq] at hlength
      exact .inr (by omega)
    · exact .inl hscheme
  · rintro (hsome | hzero)
    · exact a.registryUrl_of_scheme hsome
    · have htext : a.text = a.stem := by
        rw [text, ending, hzero]
        exact String.append_empty
      rw [htext, registryUrl_stem]

theorem exists_registryUrl_eq :
    ∃ rest, registryUrl a.text = a.scheme.getD "http" ++ schemeMark ++ rest := by
  rcases a.registryUrl_cases with ⟨-, hurl⟩ | ⟨-, -, hurl⟩ | ⟨hscheme, -, hurl⟩
  · exact ⟨a.authority, hurl⟩
  · exact ⟨a.authority ++ a.ending, by rw [hurl, origin, String.append_assoc]⟩
  · refine ⟨a.host ++ a.ending ++ ":" ++ toString defaultPort, ?_⟩
    rw [hurl, hscheme]
    simp [schemeMark, String.append_assoc]

/-- Slashes stay at the end behind a port. Behind a host alone there is the default port. -/
theorem getLast?_registryUrl_iff :
    (registryUrl a.text).toList.getLast? = some '/' ↔
      a.scheme = none ∧ a.port ≠ none ∧ a.slashes ≠ 0 := by
  rcases a.registryUrl_cases with ⟨hscheme, hurl⟩ | ⟨hscheme, hport, hurl⟩ | ⟨-, hport, hurl⟩
  · rw [hurl]
    exact iff_of_false a.getLast?_origin fun h => hscheme h.1
  · rw [hurl, String.toList_append]
    cases hslashes : a.slashes with
    | zero =>
      have hending : a.ending.toList = [] := by rw [ending, hslashes]; rfl
      rw [hending, List.append_nil]
      exact iff_of_false a.getLast?_origin fun h => h.2.2 rfl
    | succ n =>
      have hending : a.ending.toList = List.replicate n '/' ++ ['/'] := by
        rw [ending, hslashes, String.toList_ofList, List.replicate_succ']
      rw [hending, ← List.append_assoc, List.getLast?_append_of_ne_nil _ (by simp)]
      exact iff_of_true rfl ⟨hscheme, hport, n.succ_ne_zero⟩
  · rw [hurl, String.toList_append, List.getLast?_append_of_ne_nil _ (by decide)]
    exact iff_of_false (by decide) fun h => h.2.1 hport

theorem registryUrl_again_iff :
    registryUrl (registryUrl a.text) = registryUrl a.text ↔
      (registryUrl a.text).toList.getLast? ≠ some '/' := by
  obtain ⟨rest, hrest⟩ := a.exists_registryUrl_eq
  have hmark : Text.occursIn schemeMark.toList (registryUrl a.text).toList = true := by
    rw [hrest]
    exact hasScheme_of_mark _ _
  rw [← Text.trimEnd_eq_self_iff]
  conv_lhs => lhs; rw [registryUrl, if_pos hmark]

end

end Spelling

/-! ## Calls -/

/-- However the address of a registry is spelt, what becomes of it begins with a scheme.

    With a scheme, or without slashes at its end, it is the scheme and an authority without
    slashes, the same as without the slashes, and there is one slash between the authority and
    the path of a call. With slashes and without a scheme it is another text than without the
    slashes, and calls go elsewhere. If there is a port as well, the slashes are still at the end,
    and doing the same to the result takes them away. -/
theorem registryUrl_normalised_iff (a : Spelling) :
    let u := registryUrl a.text
    (∃ rest, u = a.scheme.getD "http" ++ "://" ++ rest) ∧
    (u.toList.getLast? = some '/' ↔ a.scheme = none ∧ a.port ≠ none ∧ a.slashes ≠ 0) ∧
    (u = registryUrl a.stem ↔ a.scheme ≠ none ∨ a.slashes = 0) ∧
    (registryUrl u = u ↔ ¬ (a.scheme = none ∧ a.port ≠ none ∧ a.slashes ≠ 0)) ∧
    '/' ∉ a.authority.toList ∧
    ∀ token op message, ((Handle.ofAddress a.text token).call op message).url
        = a.scheme.getD "http" ++ "://" ++ a.authority ++ "/api/registry/" ++ op.name ↔
      a.scheme ≠ none ∨ a.slashes = 0 := by
  intro u
  refine ⟨a.exists_registryUrl_eq, a.getLast?_registryUrl_iff, ?_, ?_, a.slash_not_mem_authority,
    fun token op message => ?_⟩
  · rw [a.registryUrl_stem]
    exact a.registryUrl_eq_origin_iff
  · rw [← a.getLast?_registryUrl_iff]
    exact a.registryUrl_again_iff
  · have hurl : ((Handle.ofAddress a.text token).call op message).url
        = registryUrl a.text ++ op.path := rfl
    have hcalled : a.origin ++ "/api/registry/" ++ op.name = a.origin ++ op.path :=
      String.append_assoc
    show _ = a.origin ++ "/api/registry/" ++ op.name ↔ _
    rw [hurl, hcalled, String.append_left_inj]
    exact a.registryUrl_eq_origin_iff

/-- A slash at the end stays if there is no scheme: at the end behind a port, and before the
    default port behind a host. -/
theorem trailing_slash_kept :
    let a : Spelling := { host := "10.0.0.1", port := some "6000", slashes := 1 }
    let b : Spelling := { host := "localhost", slashes := 1 }
    a.text = "10.0.0.1:6000/" ∧ registryUrl a.text = "http://10.0.0.1:6000/" ∧
    registryUrl a.text ≠ registryUrl a.stem ∧
    registryUrl (registryUrl a.text) ≠ registryUrl a.text ∧
    ((Handle.ofAddress a.text none).call .list .null).url
      = "http://10.0.0.1:6000//api/registry/list" ∧
    b.text = "localhost/" ∧ registryUrl b.text = "http://localhost/:5000" ∧
    registryUrl b.text ≠ registryUrl b.stem := by
  decide +kernel

end ServiceRegistry.Client
