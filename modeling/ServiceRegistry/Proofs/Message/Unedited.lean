/-
  ServiceRegistry.Proofs.Message.Unedited

  The text that is written for a message is one of its edited texts (`Kind.allows_encode`), in
  which nothing is left out. So what was shown of edited texts includes what programs write.
-/
import ServiceRegistry.Proofs.Message.Abbreviations

namespace ServiceRegistry

open Json (Blanks Figure Key Source Stroke noBlanks)

namespace Json

/-! ## Sources of compact text -/

theorem exists_strokes (bytes : List UInt8) :
    ∃ ss : List Stroke, ss.flatMap Stroke.bytes = bytes.flatMap escapedByte ∧
      ss.map Stroke.piece = bytes.map writtenPiece := by
  induction bytes with
  | nil => exact ⟨[], rfl, rfl⟩
  | cons b bytes ih =>
    obtain ⟨ss, hbytes, hpieces⟩ := ih
    obtain ⟨s, hs, hpiece⟩ : ∃ s : Stroke, s.bytes = escapedByte b ∧ s.piece = writtenPiece b := by
      rcases escapedByte_cases b with ⟨e, he, -, hb, hpiece⟩ | ⟨hvalue, hb, hpiece⟩ |
        ⟨hplain, hb, hpiece⟩
      · exact ⟨.short e b he, hb.symm, hpiece.symm⟩
      · exact ⟨.unit _ _ _ _ _ hvalue, hb.symm, hpiece.symm⟩
      · exact ⟨.plain b hplain, hb.symm, hpiece.symm⟩
    refine ⟨s :: ss, ?_, ?_⟩
    · rw [List.flatMap_cons, List.flatMap_cons, hs, hbytes]
    · rw [List.map_cons, List.map_cons, hpiece, hpieces]

/-- Every text has a spelling. -/
theorem exists_spelling (text : String) :
    ∃ ss : List Stroke, Stroke.quoted ss = stringBytes text ∧
      (Stroke.string ss).text = .ok text := by
  obtain ⟨ss, hbytes, hpieces⟩ := exists_strokes (Text.utf8 text)
  refine ⟨ss, ?_, ?_⟩
  · rw [Stroke.quoted, hbytes]
    rfl
  · rw [Stroke.string, hpieces]
    exact text_writtenString text

/-- The digits of a natural number. -/
def Figure.ofNat (n : Nat) : Figure where
  whole := ⟨Text.decimalBytes n, decimalBytes_ne_nil n, fun _ => isDigitByte_of_mem⟩
  leading := by
    intro hhead
    obtain ⟨ds, hds⟩ := List.head?_eq_some_iff.1 hhead
    have hzero := eq_zero_of_decimalBytes hds
    rw [hzero]
    rfl

theorem Figure.bytes_ofNat (n : Nat) : (Figure.ofNat n).bytes = (Json.natural n).bytes := by
  rw [bytes_natural]
  exact List.append_nil _

theorem bytes_array {js : List Json} {srcs : List Source}
    (h : List.Forall₂ (fun j src => src.bytes = j.bytes) js srcs) :
    (Source.array noBlanks srcs).bytes = (Json.array js).bytes := by
  have hitems : ∀ {js srcs}, List.Forall₂ (fun j (src : Source) => src.bytes = j.bytes) js srcs →
      Source.itemsBytes srcs = itemsBytes js := by
    intro js srcs h
    induction h with
    | nil => rfl
    | cons hbytes _ ih => rw [Source.itemsBytes, itemsBytes, hbytes, ih, List.cons_append]
  cases h with
  | nil => rfl
  | cons hbytes h =>
    rw [Source.bytes, bytes, hbytes, hitems h]
    rfl

theorem bytes_object {ms : List (String × Json)} {members : List (Key × Source)}
    (h : List.Forall₂ (fun m x => Source.memberBytes x = memberBytes m) ms members) :
    (Source.object noBlanks members).bytes = (Json.object ms).bytes := by
  have hmembers : ∀ {ms members},
      List.Forall₂ (fun m x => Source.memberBytes x = memberBytes m) ms members →
      Source.membersBytes members = membersBytes ms := by
    intro ms members h
    induction h with
    | nil => rfl
    | cons hbytes _ ih => rw [Source.membersBytes, membersBytes, hbytes, ih, List.cons_append]
  cases h with
  | nil => rfl
  | cons hbytes h =>
    rw [Source.bytes, bytes, hbytes, hmembers h]
    rfl

end Json

namespace Message

/-! ## Edits that change nothing -/

/-- A text is that of a value and one of its edited texts. -/
structure Plain (e : Edits) (j : Json) (src : Source) : Prop where
  trimmed_eq : src.trimmed = src
  bytes_eq : src.bytes = j.bytes
  edits : e j src 0

/-- The text of a value is one of its edited texts. -/
def Allows (e : Edits) (j : Json) : Prop := ∃ src, Plain e j src

section

variable {e : Edits} {j : Json}

theorem Allows.canonical (h : Allows e j) : Allows canonical j := by
  obtain ⟨src, htrimmed, hbytes, -⟩ := h
  refine ⟨src, htrimmed, hbytes, ?_, rfl⟩
  rw [htrimmed, hbytes]

theorem allows_string (text : String) : Allows canonical (.string text) := by
  obtain ⟨ss, hbytes, -⟩ := Json.exists_spelling text
  exact ⟨.string ss, rfl, hbytes, hbytes, rfl⟩

theorem allows_natural (n : Nat) : Allows canonical (.natural n) :=
  ⟨.number (.ofNat n), rfl, Figure.bytes_ofNat n, Figure.bytes_ofNat n, rfl⟩

theorem allows_list {js : List Json} (h : ∀ j ∈ js, Allows e j) :
    Allows (listOf e) (.array js) := by
  obtain ⟨srcs, hbytes, hedits⟩ : ∃ srcs,
      List.Forall₂ (fun j src => src.bytes = j.bytes) js srcs ∧ ItemsEdited e js srcs 0 := by
    induction js with
    | nil => exact ⟨[], .nil, .nil⟩
    | cons j js ih =>
      obtain ⟨⟨src, hsrc⟩, hjs⟩ := List.forall_mem_cons.1 h
      obtain ⟨srcs, hbytes, hedits⟩ := ih hjs
      exact ⟨src :: srcs, .cons hsrc.bytes_eq hbytes, .cons hsrc.edits hedits⟩
  exact ⟨.array noBlanks srcs, rfl, Json.bytes_array hbytes, _, _, _, rfl, rfl, hedits⟩

/-- Members are those of fields, in the order of the fields, and what is written for each is
    allowed. They are looked up in the object that they belong to. -/
inductive Covers (all : List (String × Json)) : List FieldEdits → List (String × Json) → Prop
  | nil : Covers all [] []
  | member {name : String} {e : Edits} {absence : Absence} {j : Json} {fs : List FieldEdits}
    {ms : List (String × Json)} (hlookup : all.lookup name = some j) (hallows : Allows e j)
    (hrest : Covers all fs ms) : Covers all (⟨name, e, absence⟩ :: fs) ((name, j) :: ms)
  | none {f : FieldEdits} {fs : List FieldEdits} {ms : List (String × Json)}
    (hlookup : all.lookup f.name = none) (hrest : Covers all fs ms) : Covers all (f :: fs) ms

theorem Covers.exists_parts {all ms : List (String × Json)} {fs : List FieldEdits}
    (h : Covers all fs ms) : ∃ members,
      List.Forall₂ (fun m x => Source.memberBytes x = Json.memberBytes m) ms members ∧
      Parts all fs members 0 := by
  induction h with
  | nil => exact ⟨[], .nil, .nil⟩
  | @member name e absence j fs ms hlookup hallows _ ih =>
    obtain ⟨members, hbytes, hparts⟩ := ih
    obtain ⟨ss, hquoted, hspells⟩ := Json.exists_spelling name
    obtain ⟨src, hsrc⟩ := hallows
    have hmember : Source.memberBytes (⟨noBlanks, ss, noBlanks⟩, src)
        = Json.memberBytes (name, j) := by
      rw [Source.memberBytes, Json.memberBytes, hquoted, hsrc.bytes_eq]
      rfl
    have hpart : FieldEdits.Part ⟨name, e, absence⟩ (all.lookup name)
        [(⟨noBlanks, ss, noBlanks⟩, src)] 0 := by
      rw [hlookup]
      exact .given hspells hsrc.edits
    exact ⟨_, .cons hmember hbytes, .cons hpart hparts⟩
  | @none f fs ms hlookup _ ih =>
    obtain ⟨members, hbytes, hparts⟩ := ih
    have hpart : f.Part (all.lookup f.name) [] 0 := by
      rw [hlookup]
      exact .absent
    exact ⟨members, hbytes, .cons hpart hparts⟩

theorem Covers.allows {fs : List FieldEdits} {ms : List (String × Json)} (h : Covers ms fs ms) :
    Allows (record fs) (.object ms) := by
  obtain ⟨members, hbytes, hparts⟩ := h.exists_parts
  exact ⟨.object noBlanks members, rfl, Json.bytes_object hbytes, _, _, _, _, [], rfl, rfl, hparts,
    List.forall_mem_nil _, .of_eq (List.append_nil members).symm⟩

end

/-! ## Parts of messages -/

/-- A list of texts and numbers stays as it is. -/
theorem allows_items {α : Type} {write : α → Json} (h : ∀ a, Allows canonical (write a))
    (as : List α) : Allows canonical (.array (as.map write)) :=
  (allows_list (List.forall_mem_map.2 fun a _ => h a)).canonical

theorem allows_capability (c : Capability) : Allows canonical c.toJson := allows_string c.name

theorem allows_role (r : Access.Role) : Allows canonical r.toJson := allows_string r.name

theorem allows_service (s : Service) : Allows serviceEdits s.toJson := by
  obtain ⟨name, path⟩ := s
  have hname := allows_string name
  cases path with
  | none => exact Covers.allows (.member rfl hname (.none rfl .nil))
  | some path => exact Covers.allows (.member rfl hname (.member rfl (allows_string path) .nil))

theorem allows_endpoint (e : Endpoint) : Allows endpointEdits e.toJson :=
  Covers.allows (.member rfl (allows_string e.host) (.member rfl (allows_natural _) .nil))

theorem allows_claims (c : Access.Claims) : Allows claimsEdits c.toJson :=
  Covers.allows (.member rfl (allows_string c.subject)
    (.member rfl (allows_items allows_role c.roles)
      (.member rfl (allows_natural _) .nil)))

theorem allows_announcement (a : Announcement) : Allows announcementEdits a.toJson :=
  Covers.allows (.member rfl (allows_string a.host) (.member rfl (allows_natural _)
    (.member rfl (allows_items allows_capability a.capabilities) .nil)))

theorem allows_address (a : Address) : Allows addressEdits a.toJson :=
  Covers.allows (.member rfl (allows_string a.host) (.member rfl (allows_natural _)
    (.member rfl (allows_items allows_capability a.capabilities) .nil)))

theorem allows_listing (l : Listing) : Allows listingEdits l.toJson :=
  Covers.allows (.member rfl (allows_service l.service)
    (.member rfl (allows_list (List.forall_mem_map.2 fun a _ => allows_address a)) .nil))

theorem allows_condition (c : Condition) : Allows canonical c.toJson := by
  cases c with
  | live => exact allows_string _
  | suspect => exact allows_string _
  | evicted r =>
    have hcovers : Covers [("evicted", r.toJson)] [⟨"evicted", canonical, .never⟩]
        [("evicted", r.toJson)] := .member rfl (allows_string r.name) .nil
    exact hcovers.allows.canonical

/-! ## Messages -/

namespace Kind

/-- The text that is written for a message leaves out nothing that must be given. -/
theorem allows_encode (k : Kind) (m : k.Value) : Allows k.edits (k.encode m) := by
  cases k with
  | capability => exact allows_capability m
  | role => exact allows_role m
  | permission => exact allows_string _
  | evictionReason => exact allows_string _
  | condition => exact allows_condition m
  | instanceId => exact allows_natural _
  | service => exact allows_service m
  | serviceAddress => exact allows_endpoint m
  | registeredAddress => exact allows_endpoint m
  | claims => exact allows_claims m
  | announcement => exact allows_announcement m
  | registerRequest =>
    obtain ⟨service, addresses⟩ := m
    exact Covers.allows (.member rfl (allows_service service)
      (.member rfl (allows_list (List.forall_mem_map.2 fun a _ => allows_announcement a)) .nil))
  | registerResponse =>
    obtain ⟨instanceId, addresses⟩ := m
    exact Covers.allows (.member rfl (allows_natural _)
      (.member rfl (allows_list (List.forall_mem_map.2 fun e _ => allows_endpoint e)) .nil))
  | deregisterRequest => exact Covers.allows (.member rfl (allows_natural _) .nil)
  | listRequest => exact Covers.allows (.member rfl (allows_string _) .nil)
  | instanceAddress => exact allows_address m
  | serviceListing => exact allows_listing m
  | listResponse =>
    exact Covers.allows
      (.member rfl (allows_list (List.forall_mem_map.2 fun l _ => allows_listing l)) .nil)
  | targetRequest =>
    exact Covers.allows (.member rfl (allows_string _) (.member rfl (allows_string _)
      (.member rfl (allows_string _) .nil)))
  | lookupRequest => exact Covers.allows (.member rfl (allows_service _) .nil)
  | lookupAnswer => exact allows_listing m
  | shutdownRequest => exact Covers.allows (.member rfl (allows_string _) .nil)
  | processShutdownRequest =>
    obtain ⟨host, ports⟩ := m
    have hports : Allows canonical (.array (ports.map .port)) :=
      allows_items (fun _ => allows_natural _) ports
    cases host with
    | none => exact Covers.allows (.none rfl (.member rfl hports .nil))
    | some host => exact Covers.allows (.member rfl (allows_string host) (.member rfl hports .nil))
  | ack => exact Covers.allows .nil
  | errorBody => exact Covers.allows (.member rfl (allows_string _) .nil)

end Kind

end Message

end ServiceRegistry
