/-
  ServiceRegistry.Proofs.Message.Abbreviations

  What clients may leave out of messages. `Kind.edits` says of every kind, field by field, which
  members may be left out and for what. A text that leaves out nothing else is read as the message
  that was meant, and every other one is refused, however deep the member is in the message.
-/
import ServiceRegistry.Proofs.Message.Edits
import ServiceRegistry.Proofs.Message.Kinds

namespace ServiceRegistry

open Json (Blanks Decoder Digits Key RecordField Source Stroke noBlanks)
open Text (ascii isDigitByte)

namespace Message

/-! ## Which members may be left out -/

/-- A service without a deploy path may say so. -/
def serviceEdits : Edits :=
  record [⟨"name", canonical, .never⟩, ⟨"deploy_path", canonical, .optional⟩]

def endpointEdits : Edits := record [⟨"host", canonical, .never⟩, ⟨"port", canonical, .never⟩]

def claimsEdits : Edits :=
  record [⟨"sub", canonical, .never⟩, ⟨"roles", canonical, .never⟩, ⟨"exp", canonical, .never⟩]

/-- Whoever announces an address need not give a host or capabilities. -/
def announcementEdits : Edits :=
  record [⟨"host", canonical, .emptyAs (.string "")⟩, ⟨"port", canonical, .never⟩,
    ⟨"api_types", canonical, .emptyAs (.array [])⟩]

def addressEdits : Edits :=
  record [⟨"host", canonical, .never⟩, ⟨"port", canonical, .never⟩,
    ⟨"api_types", canonical, .never⟩]

def listingEdits : Edits :=
  record [⟨"service", serviceEdits, .never⟩, ⟨"addresses", listOf addressEdits, .never⟩]

/-- How the texts of a kind may be edited. -/
def Kind.edits : Kind → Edits
  | capability | role | permission | evictionReason | condition | instanceId => canonical
  | service => serviceEdits
  | serviceAddress => endpointEdits
  | registeredAddress => endpointEdits
  | claims => claimsEdits
  | announcement => announcementEdits
  | registerRequest =>
    record [⟨"service", serviceEdits, .never⟩, ⟨"addresses", listOf announcementEdits, .never⟩]
  | registerResponse =>
    record [⟨"instance_id", canonical, .never⟩, ⟨"addresses", listOf endpointEdits, .never⟩]
  | deregisterRequest => record [⟨"instance_id", canonical, .never⟩]
  | listRequest => record [⟨"name", canonical, .emptyAs (.string "")⟩]
  | instanceAddress => addressEdits
  | serviceListing => listingEdits
  | listResponse => record [⟨"services", listOf listingEdits, .never⟩]
  | targetRequest =>
    record [⟨"deploy_path", canonical, .emptyAs (.string "")⟩,
      ⟨"name", canonical, .emptyAs (.string "")⟩, ⟨"api_type", canonical, .never⟩]
  | lookupRequest => record [⟨"service", serviceEdits, .never⟩]
  | lookupAnswer => listingEdits
  | shutdownRequest => record [⟨"service_name", canonical, .never⟩]
  | processShutdownRequest =>
    record [⟨"host", canonical, .optional⟩, ⟨"ports", canonical, .never⟩]
  | ack => record []
  | errorBody => record [⟨"error", canonical, .never⟩]

/-! ## Fields -/

section

variable {α : Type} {a : α} {ms : List (String × Json)} {e : Edits} {j : Json}

/-- A member that must be given, as the field has no default. -/
theorem Slot.fits_required (f : RecordField α) (hlookup : ms.lookup f.name = some j)
    (hdefault : f.default? = none)
    (hedits : ∀ src lacking, e j src lacking → Decodes f.decode a src lacking) :
    Slot.Fits ms ⟨f.name, e, .never⟩ ⟨f, a⟩ :=
  fits_member f hlookup hedits (fun _ => hdefault) nofun

theorem Slot.fits_canonical (f : RecordField α) (hlookup : ms.lookup f.name = some j)
    (hdefault : f.default? = none) (h : Conveys f.decode j a) :
    Slot.Fits ms ⟨f.name, canonical, .never⟩ ⟨f, a⟩ :=
  fits_required f hlookup hdefault fun _ _ => decodes_canonical h

/-- A text that may be left out when it is empty. -/
theorem Slot.fits_text (f : RecordField String) {text : String} (hdecode : f.decode = .string)
    (hlookup : ms.lookup f.name = some (.string text)) (hdefault : f.default? = some "") :
    Slot.Fits ms ⟨f.name, canonical, .emptyAs (.string "")⟩ ⟨f, text⟩ := by
  refine fits_member f hlookup (fun src lacking => ?_) nofun (fun habsence => ?_)
  · rw [hdecode]
    exact decodes_canonical (conveys_string text)
  · cases habsence
    exact hdefault

/-- A text that a value may have or not. -/
theorem Slot.fits_textIfAny (f : RecordField (Option String)) {text? : Option String}
    (hdecode : f.decode = .optional .string)
    (hlookup : ms.lookup f.name = text?.map .string) (hdefault : f.default? = some none) :
    Slot.Fits ms ⟨f.name, canonical, .optional⟩ ⟨f, text?⟩ := by
  cases text? with
  | none =>
    refine fits_none f hlookup hdefault ?_
    rw [hdecode]
    rfl
  | some text =>
    refine fits_member f hlookup (fun src lacking => ?_) nofun nofun
    rw [hdecode]
    exact decodes_canonical (conveys_optional text)

end

/-! ## Parts -/

theorem handles_service : Handles Service.decode Service.toJson serviceEdits := by
  intro s src lacking h
  refine decodes_two_fields (by decide) ?_ ?_ h
  · exact Slot.fits_canonical Fields.serviceName rfl rfl (conveys_string s.name)
  · refine Slot.fits_textIfAny Fields.deployPath rfl ?_ rfl
    cases s.deployPath <;> rfl

theorem handles_endpoint (title : String) :
    Handles (Endpoint.decode title) Endpoint.toJson endpointEdits := by
  intro e src lacking h
  refine decodes_two_fields (by decide) ?_ ?_ h
  · exact Slot.fits_canonical Fields.host rfl rfl (conveys_string e.host)
  · exact Slot.fits_canonical Fields.port rfl rfl (conveys_port e.port)

theorem handles_claims : Handles Access.Claims.decode Access.Claims.toJson claimsEdits := by
  intro c src lacking h
  refine decodes_three_fields (by decide) ?_ ?_ ?_ h
  · exact Slot.fits_canonical Fields.subject rfl rfl (conveys_string c.subject)
  · exact Slot.fits_canonical Fields.roles rfl rfl (conveys_list fun r _ => conveys_role r)
  · exact Slot.fits_canonical Fields.expiry rfl rfl (conveys_size c.expiry)

theorem handles_announcement :
    Handles Announcement.decode Announcement.toJson announcementEdits := by
  intro a src lacking h
  refine decodes_three_fields (by decide) ?_ ?_ ?_ h
  · exact Slot.fits_text Fields.hostOrEmpty rfl rfl rfl
  · exact Slot.fits_canonical Fields.port rfl rfl (conveys_port a.port)
  · refine Slot.fits_member Fields.capabilitiesOrNone rfl
      (fun _ _ => decodes_canonical (conveys_capabilities a.capabilities)) nofun fun habsence => ?_
    -- The list of capabilities is empty if its text is.
    have hempty : [] = a.capabilities.map Capability.toJson :=
      Json.array.inj (Absence.emptyAs.inj habsence)
    rw [List.map_eq_nil_iff.1 hempty.symm]
    rfl

theorem handles_address : Handles Address.decode Address.toJson addressEdits := by
  intro a src lacking h
  refine decodes_three_fields (by decide) ?_ ?_ ?_ h
  · exact Slot.fits_canonical Fields.host rfl rfl (conveys_string a.host)
  · exact Slot.fits_canonical Fields.port rfl rfl (conveys_port a.port)
  · exact Slot.fits_canonical Fields.capabilities rfl rfl (conveys_capabilities a.capabilities)

theorem handles_listing (title : String) :
    Handles (Listing.decode title) Listing.toJson listingEdits := by
  intro l src lacking h
  refine decodes_two_fields (by decide) ?_ ?_ h
  · exact Slot.fits_required Fields.service rfl rfl (handles_service l.service)
  · exact Slot.fits_required Fields.addresses rfl rfl (handles_address.list l.addresses)

/-! ## Messages -/

theorem handles_registerRequest :
    Handles RegisterRequest.decode RegisterRequest.toJson Kind.registerRequest.edits := by
  intro r src lacking h
  refine decodes_two_fields (by decide) ?_ ?_ h
  · exact Slot.fits_required Fields.service rfl rfl (handles_service r.service)
  · exact Slot.fits_required Fields.announcements rfl rfl (handles_announcement.list r.addresses)

theorem handles_registerResponse :
    Handles RegisterResponse.decode RegisterResponse.toJson Kind.registerResponse.edits := by
  intro r src lacking h
  refine decodes_two_fields (by decide) ?_ ?_ h
  · exact Slot.fits_canonical Fields.instanceId rfl rfl (conveys_word r.instanceId)
  · exact Slot.fits_required Fields.endpoints rfl rfl ((handles_endpoint _).list r.addresses)

theorem handles_deregisterRequest :
    Handles DeregisterRequest.decode DeregisterRequest.toJson Kind.deregisterRequest.edits := by
  intro r src lacking h
  refine decodes_one_field ?_ h
  exact Slot.fits_canonical Fields.instanceId rfl rfl (conveys_word r.instanceId)

theorem handles_listRequest :
    Handles ListRequest.decode ListRequest.toJson Kind.listRequest.edits := by
  intro r src lacking h
  refine decodes_one_field ?_ h
  exact Slot.fits_text Fields.nameOrEmpty rfl rfl rfl

theorem handles_targetRequest :
    Handles TargetRequest.decode TargetRequest.toJson Kind.targetRequest.edits := by
  intro r src lacking h
  refine decodes_three_fields (by decide) ?_ ?_ ?_ h
  · exact Slot.fits_text Fields.pathOrEmpty rfl rfl rfl
  · exact Slot.fits_text Fields.nameOrEmpty rfl rfl rfl
  · exact Slot.fits_canonical Fields.capability rfl rfl (conveys_capability r.capability)

theorem handles_lookupRequest :
    Handles LookupRequest.decode LookupRequest.toJson Kind.lookupRequest.edits := by
  intro r src lacking h
  refine decodes_one_field ?_ h
  exact Slot.fits_required Fields.service rfl rfl (handles_service r.service)

theorem handles_listResponse :
    Handles ListResponse.decode ListResponse.toJson Kind.listResponse.edits := by
  intro r src lacking h
  refine decodes_one_field ?_ h
  exact Slot.fits_required Fields.listings rfl rfl ((handles_listing _).list r.services)

theorem handles_shutdownRequest :
    Handles ShutdownRequest.decode ShutdownRequest.toJson Kind.shutdownRequest.edits := by
  intro r src lacking h
  refine decodes_one_field ?_ h
  exact Slot.fits_canonical Fields.shutdownName rfl rfl (conveys_string r.serviceName)

theorem handles_processShutdownRequest :
    Handles ProcessShutdownRequest.decode ProcessShutdownRequest.toJson
      Kind.processShutdownRequest.edits := by
  intro r src lacking h
  refine decodes_two_fields (by decide) ?_ ?_ h
  · refine Slot.fits_textIfAny Fields.hostIfAny rfl ?_ rfl
    cases r.host <;> rfl
  · have hports : Conveys (.list .uint16) (.array (r.ports.map .port)) r.ports :=
      conveys_list fun p _ => conveys_port p
    refine Slot.fits_canonical Fields.ports ?_ rfl hports
    cases r.host <;> rfl

theorem handles_ack : Handles Ack.decode Ack.toJson Kind.ack.edits := by
  intro a src lacking h
  have hfits : List.Forall₂ (Slot.Fits []) [] [] := .nil
  exact decodes_record hfits List.nodup_nil (fun _ _ => rfl) (fun _ _ _ => nofun) h

theorem handles_errorBody : Handles ErrorBody.decode ErrorBody.toJson Kind.errorBody.edits := by
  intro e src lacking h
  refine decodes_one_field ?_ h
  exact Slot.fits_canonical Fields.error rfl rfl (conveys_string e.error)

namespace Kind

theorem handles (k : Kind) : Handles k.decode k.encode k.edits := by
  cases k with
  | capability => exact handles_canonical conveys_capability
  | role => exact handles_canonical conveys_role
  | permission => exact handles_canonical conveys_permission
  | evictionReason => exact handles_canonical conveys_evictionReason
  | condition => exact handles_canonical conveys_condition
  | instanceId => exact handles_canonical conveys_word
  | service => exact handles_service
  | serviceAddress => exact handles_endpoint _
  | registeredAddress => exact handles_endpoint _
  | claims => exact handles_claims
  | announcement => exact handles_announcement
  | registerRequest => exact handles_registerRequest
  | registerResponse => exact handles_registerResponse
  | deregisterRequest => exact handles_deregisterRequest
  | listRequest => exact handles_listRequest
  | instanceAddress => exact handles_address
  | serviceListing => exact handles_listing _
  | listResponse => exact handles_listResponse
  | targetRequest => exact handles_targetRequest
  | lookupRequest => exact handles_lookupRequest
  | lookupAnswer => exact handles_listing _
  | shutdownRequest => exact handles_shutdownRequest
  | processShutdownRequest => exact handles_processShutdownRequest
  | ack => exact handles_ack
  | errorBody => exact handles_errorBody

/-- Clients may reorder and abbreviate. Whatever is edited, and however deep, a text that has all
    the members that must be given is read as the message, and any other text is refused. -/
theorem read_edited (k : Kind) (m : k.Value) {src : Source} {lacking : Nat}
    (h : k.edits (k.encode m) src lacking) :
    (lacking = 0 → k.decode.readWhole src.bytes = .ok m ∧ k.decode.readFirst src.bytes = .ok m) ∧
    (0 < lacking → (∃ fault, k.decode.readWhole src.bytes = .error fault) ∧
      ∃ fault, k.decode.readFirst src.bytes = .error fault) := by
  rw [src.readWhole_eq, src.readFirst_eq]
  obtain ⟨hgood, hbad⟩ := k.handles m src lacking h
  exact ⟨fun hnone => ⟨hgood hnone, hgood hnone⟩, fun hsome => ⟨hbad hsome, hbad hsome⟩⟩

end Kind

/-! ## A request in few words -/

namespace Brief

/-- Letters that stand for themselves. -/
def letters (text : String)
    (h : ((Text.utf8 text).all fun b => b ≠ ascii '"' ∧ b ≠ ascii '\\' ∧ ¬ b < 0x20) = true) :
    List Stroke :=
  (Text.utf8 text).pmap .plain fun b hb => of_decide_eq_true (List.all_eq_true.1 h b hb)

def digits (d : UInt8) (ds : List UInt8) (h : (d :: ds).all isDigitByte = true) : Digits :=
  ⟨d :: ds, List.cons_ne_nil d ds, List.all_eq_true.1 h⟩

def blank : Blanks := ⟨[ascii ' '], List.forall_mem_singleton.2 rfl⟩

def member (key : List Stroke) (value : Source) : Key × Source :=
  (⟨noBlanks, key, noBlanks⟩, .spaced blank value noBlanks)

def name : Key × Source :=
  member (letters "name" (by decide)) (.string (letters "db" (by decide)))

def path : Key × Source := member (letters "deploy_path" (by decide)) .null

def service : Key × Source :=
  member (letters "service" (by decide)) (.object noBlanks [path, name])

def port : Key × Source :=
  member (letters "port" (by decide))
    (.number { whole := digits (ascii '8') [ascii '0'] rfl, leading := by decide })

/-- A number that does not end as it began. -/
def figure : Json.Figure where
  negative := true
  whole := digits (ascii '1') [] rfl
  leading := by decide
  fraction := some (digits (ascii '5') [] rfl)
  exponent := some (true, some false, digits (ascii '3') [] rfl)

/-- A member that nobody asks for. -/
def zone : Key × Source :=
  member (letters "zone" (by decide)) (.array noBlanks
    [.string [.unit 0x30 0x30 0x36 0x31 0x61 (by decide)],
      .object noBlanks [member (letters "a" (by decide)) (.number figure)]])

def addresses (members : List (Key × Source)) : Key × Source :=
  member (letters "addresses" (by decide)) (.array noBlanks [.object noBlanks members])

/-- A request with one address, which has some members. -/
def text (members : List (Key × Source)) : Source := .object noBlanks [addresses members, service]

/-- A database announces a port of the host that it is on. -/
def announcement : Announcement := ⟨"", 80, []⟩

def request : RegisterRequest := ⟨⟨"db", none⟩, [announcement]⟩

theorem stray_zone {slots : List String} (h : "zone" ∉ slots) :
    ∀ m ∈ [zone], ∃ name, m.1.Spells name ∧ name ∉ slots :=
  List.forall_mem_singleton.2 ⟨"zone", rfl, h⟩

theorem edits_service : serviceEdits request.service.toJson service.2 0 := by
  have hparts : Parts [("name", .string "db")]
      [⟨"name", canonical, .never⟩, ⟨"deploy_path", canonical, .optional⟩]
      ([name] ++ ([path] ++ [])) (0 + (0 + 0)) :=
    .cons (.given rfl ⟨rfl, rfl⟩) (.cons (.null rfl rfl rfl) .nil)
  exact ⟨_, _, [path, name], [name, path], [], rfl, rfl, hparts, nofun, .swap _ _ _⟩

theorem edits_announcement :
    announcementEdits announcement.toJson (.object noBlanks [zone, port]) 0 := by
  have hparts : Parts [("host", .string ""), ("port", .port 80), ("api_types", .array [])]
      [⟨"host", canonical, .emptyAs (.string "")⟩, ⟨"port", canonical, .never⟩,
        ⟨"api_types", canonical, .emptyAs (.array [])⟩]
      ([] ++ ([port] ++ ([] ++ []))) (0 + (0 + (0 + 0))) :=
    .cons (.leftOut rfl) (.cons (.given rfl ⟨rfl, rfl⟩) (.cons (.leftOut rfl) .nil))
  exact ⟨_, _, [zone, port], [port], [zone], rfl, rfl, hparts, stray_zone (by decide), .swap _ _ _⟩

theorem edits_announcement_lacking :
    announcementEdits announcement.toJson (.object noBlanks [zone]) 1 := by
  have hparts : Parts [("host", .string ""), ("port", .port 80), ("api_types", .array [])]
      [⟨"host", canonical, .emptyAs (.string "")⟩, ⟨"port", canonical, .never⟩,
        ⟨"api_types", canonical, .emptyAs (.array [])⟩]
      ([] ++ ([] ++ ([] ++ []))) (0 + (1 + (0 + 0))) :=
    .cons (.leftOut rfl) (.cons (.lacking rfl) (.cons (.leftOut rfl) .nil))
  exact ⟨_, _, [zone], [], [zone], rfl, rfl, hparts, stray_zone (by decide), .refl _⟩

theorem edits_text {members : List (Key × Source)} {lacking : Nat}
    (h : announcementEdits announcement.toJson (.object noBlanks members) lacking) :
    Kind.registerRequest.edits request.toJson (text members) lacking := by
  have hparts : Parts
      [("service", request.service.toJson), ("addresses", .array [announcement.toJson])]
      [⟨"service", serviceEdits, .never⟩, ⟨"addresses", listOf announcementEdits, .never⟩]
      ([service] ++ ([addresses members] ++ [])) (0 + (lacking + 0 + 0)) :=
    .cons (.given rfl edits_service)
      (.cons (.given rfl ⟨_, _, _, rfl, rfl, .cons h .nil⟩) .nil)
  rw [Nat.zero_add] at hparts
  exact ⟨_, _, [addresses members, service], [service, addresses members], [], rfl, rfl, hparts,
    nofun, .swap _ _ _⟩

/-- Members in another order, others among them, and all left out that may be: the request is read
    as it was meant. Without the port it is refused. -/
theorem read_text :
    let full := Text.utf8 ("\x7b\"addresses\": [\x7b\"zone\": [\"\\u0061\"," ++
      "\x7b\"a\": -1.5E+3\x7d],\"port\": 80\x7d]," ++
      "\"service\": \x7b\"deploy_path\": null,\"name\": \"db\"\x7d\x7d")
    let short := Text.utf8 ("\x7b\"addresses\": [\x7b\"zone\": [\"\\u0061\"," ++
      "\x7b\"a\": -1.5E+3\x7d]\x7d]," ++
      "\"service\": \x7b\"deploy_path\": null,\"name\": \"db\"\x7d\x7d")
    (Kind.registerRequest.edits request.toJson (text [zone, port]) 0 ∧
      (text [zone, port]).bytes = full ∧
      RegisterRequest.decode.readWhole full = .ok request ∧
      RegisterRequest.decode.readFirst full = .ok request) ∧
    (Kind.registerRequest.edits request.toJson (text [zone]) 1 ∧ (text [zone]).bytes = short ∧
      (∃ fault, RegisterRequest.decode.readWhole short = .error fault) ∧
      ∃ fault, RegisterRequest.decode.readFirst short = .error fault) := by
  intro full short
  have hfull : (text [zone, port]).bytes = full := by rfl
  have hshort : (text [zone]).bytes = short := by rfl
  have hedits := edits_text edits_announcement
  have hlacking := edits_text edits_announcement_lacking
  obtain ⟨hgood, -⟩ := Kind.read_edited .registerRequest request hedits
  obtain ⟨-, hbad⟩ := Kind.read_edited .registerRequest request hlacking
  rw [hfull] at hgood
  rw [hshort] at hbad
  exact ⟨⟨hedits, hfull, hgood rfl⟩, hlacking, hshort, hbad Nat.one_pos⟩

end Brief

end Message

end ServiceRegistry
