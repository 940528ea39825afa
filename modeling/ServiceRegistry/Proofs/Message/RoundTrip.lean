/-
  ServiceRegistry.Proofs.Message.RoundTrip

  Messages survive transport: what one side writes, the other side reads as what was meant
  (`Conveys`). Decoders are put together from those of parts, and so are the proofs: there is
  one lemma for each kind of value and one for records, in which every field has its member
  or is left out for its default (`Written`).
-/
import Mathlib.Data.List.Nodup
import ServiceRegistry.Message.Decode
import ServiceRegistry.Message.Encode
import ServiceRegistry.Proofs.Json.RoundTrip

namespace ServiceRegistry

open Json (Decoder RecordField Rule Table Raw Reads ReadsMember writtenString text_writtenString)

/-! ## Values -/

/-- The text of a value is read as what was meant by it. -/
def Conveys {α : Type} (d : Decoder α) (j : Json) (a : α) : Prop :=
  ∃ raw, j.Reads raw ∧ d raw = .ok a

section

variable {α β : Type} {d : Decoder α} {j : Json} {a : α}

theorem Conveys.readFirst (h : Conveys d j a) : d.readFirst j.bytes = .ok a := by
  obtain ⟨raw, hreads, hdecode⟩ := h
  rw [Decoder.readFirst, hreads.read, hdecode]

theorem Conveys.readWhole (h : Conveys d j a) : d.readWhole j.bytes = .ok a := by
  obtain ⟨raw, hreads, hdecode⟩ := h
  rw [Decoder.readWhole, hreads.read]
  dsimp only
  rw [hdecode]
  rfl

theorem conveys_string (text : String) : Conveys .string (.string text) text := by
  refine ⟨_, Json.reads_string text, ?_⟩
  rw [Decoder.string, text_writtenString]
  rfl

theorem conveys_natural {bound n : Nat} (hbound : bound ≤ UInt64.size) (hn : n < bound)
    (expected : String) : Conveys (.natural bound expected) (.natural n) n := by
  refine ⟨_, Json.reads_natural n, ?_⟩
  have hrange : (0 : Int) ≤ n ∧ (n : Int) < bound := by omega
  rw [Decoder.natural, Json.numberFound_ofNat (Nat.lt_of_lt_of_le hn hbound)]
  dsimp only
  rw [if_pos hrange, Int.toNat_natCast]

theorem Conveys.map {f : α → β} (h : Conveys d j a) :
    Conveys (fun raw => (d raw).map f) j (f a) := by
  obtain ⟨raw, hreads, hdecode⟩ := h
  refine ⟨raw, hreads, ?_⟩
  dsimp only
  rw [hdecode]
  rfl

theorem conveys_port (p : UInt16) : Conveys .uint16 (.port p) p := by
  have h : Conveys .uint16 (.port p) (UInt16.ofNat p.toNat) :=
    (conveys_natural (by decide) p.toNat_lt _).map
  rwa [UInt16.ofNat_toNat] at h

theorem conveys_word (n : UInt64) : Conveys .uint64 (.word n) n := by
  have h : Conveys .uint64 (.word n) (UInt64.ofNat n.toNat) :=
    (conveys_natural (Nat.le_refl _) n.toNat_lt _).map
  rwa [UInt64.ofNat_toNat] at h

theorem conveys_size (n : UInt64) : Conveys .size (.word n) n := by
  have h : Conveys .size (.word n) (UInt64.ofNat n.toNat) :=
    (conveys_natural (Nat.le_refl _) n.toNat_lt _).map
  rwa [UInt64.ofNat_toNat] at h

theorem conveys_optional (text : String) :
    Conveys (.optional .string) (.string text) (some text) := by
  refine ⟨_, Json.reads_string text, ?_⟩
  rw [Decoder.optional, Decoder.string, text_writtenString]
  · rfl
  · exact nofun

/-! ## Choices and lists -/

/-- A bare variant is written as its name. -/
theorem conveys_bare {variants : List (String × Json.Variant α)} {name : String}
    (h : variants.lookup name = some (.bare a)) :
    Conveys (.choice variants) (.string name) a := by
  refine ⟨_, Json.reads_string name, ?_⟩
  rw [Decoder.choice, text_writtenString]
  simp only [Except.mapError, bind, Except.bind, Decoder.variantNamed, h]
  rfl

/-- A variant with a value is written as an object with one member. -/
theorem conveys_holding {variants : List (String × Json.Variant α)} {name : String}
    (h : variants.lookup name = some (.holding d)) (hvalue : Conveys d j a) :
    Conveys (.choice variants) (.object [(name, j)]) a := by
  obtain ⟨raw, hreads, hdecode⟩ := hvalue
  refine ⟨.object [(writtenString name, raw)] .closed,
    Json.reads_object (.cons ⟨rfl, hreads⟩ .nil), ?_⟩
  rw [Decoder.choice, text_writtenString]
  simp only [Except.mapError, bind, Except.bind, Decoder.variantNamed, h, Decoder.variantValue,
    Decoder.at, hdecode]
  rfl

theorem lookup_named {values : List α} {name : α → String} (hmem : a ∈ values)
    (hinjective : ∀ x ∈ values, name x = name a → x = a) :
    (values.map fun x => (name x, Json.Variant.bare x)).lookup (name a) = some (.bare a) := by
  induction values with
  | nil => cases hmem
  | cons x xs ih =>
    obtain ⟨hx, hxs⟩ := List.forall_mem_cons.1 hinjective
    rw [List.map_cons, List.lookup_cons]
    by_cases hname : name x = name a
    · obtain rfl := hx hname
      rw [beq_self_eq_true]
    · have hother : (name a == name x) = false := beq_false_of_ne (Ne.symm hname)
      have hlater : a ∈ xs := by
        refine (List.mem_cons.1 hmem).resolve_left ?_
        rintro rfl
        exact hname rfl
      rw [hother]
      exact ih hlater hxs

/-- A value with a name of its own is written as this name. -/
theorem conveys_named {values : List α} {name : α → String} (hmem : a ∈ values)
    (hinjective : ∀ x ∈ values, name x = name a → x = a) :
    Conveys (.named values name) (.string (name a)) a :=
  conveys_bare (lookup_named hmem hinjective)

theorem conveys_capability (c : Capability) : Conveys Capability.decode c.toJson c :=
  conveys_named (Capability.mem_all c) fun _ _ => Capability.name_injective

theorem items_of_forall₂ {raws : List Raw} {as : List α}
    (h : List.Forall₂ (fun raw a => d raw = .ok a) raws as) (n : Nat) :
    Decoder.items d .closed n raws = .ok as := by
  induction h generalizing n with
  | nil => rfl
  | cons hraw _ ih =>
    rw [Decoder.items, Decoder.at, hraw, ih]
    rfl

theorem conveys_list {write : α → Json} {as : List α} (h : ∀ a ∈ as, Conveys d (write a) a) :
    Conveys (.list d) (.array (as.map write)) as := by
  -- The trees of the items, one for each.
  obtain ⟨raws, hreads, hitems⟩ : ∃ raws, List.Forall₂ Reads (as.map write) raws ∧
      List.Forall₂ (fun raw a => d raw = .ok a) raws as := by
    induction as with
    | nil => exact ⟨[], .nil, .nil⟩
    | cons a as ih =>
      obtain ⟨⟨raw, hraw, hdecode⟩, hrest⟩ := List.forall_mem_cons.1 h
      obtain ⟨raws, hraws, hitems⟩ := ih hrest
      exact ⟨raw :: raws, .cons hraw hraws, .cons hdecode hitems⟩
  exact ⟨_, Json.reads_array hreads, items_of_forall₂ hitems 0⟩

end

/-! ## Records -/

section

variable {α : Type} {rules : List Rule} {seen t : Table}

/-- The rule of a member accepts its value. -/
def Admits (rules : List Rule) (p : String × Raw) : Prop :=
  ∃ r, rules.find? (·.name == p.1) = some r ∧ r.check p.2 = .ok ()

theorem admits_of_decode {f : RecordField α} {raw : Raw} {a : α}
    (hrule : rules.find? (·.name == f.name) = some f.rule) (hdecode : f.decode raw = .ok a) :
    Admits rules (f.name, raw) := by
  refine ⟨f.rule, hrule, ?_⟩
  show (f.decode raw).map _ = _
  rw [hdecode]
  rfl

section

variable {ending : Json.Ending} {key : Json.RawString} {name : String} {value : Raw}
variable {ms : List (Json.RawString × Raw)} (hkey : key.text = .ok name)

include hkey

/-- A member that a rule accepts is collected. -/
theorem scanMembers_known {r : Rule} (hfind : rules.find? (·.name == name) = some r)
    (hnew : seen.lookup name = none) (hcheck : r.check value = .ok ()) :
    Json.scanMembers rules ending seen ((key, value) :: ms)
      = Json.scanMembers rules ending ((name, value) :: seen) ms := by
  have hmember : (Decoder.at r.check (.member name)) value = .ok () := by
    rw [Decoder.at, hcheck]
    rfl
  rw [Json.scanMembers, hkey]
  simp only [Except.mapError, bind, Except.bind, hfind, hnew, Option.isSome_none,
    Bool.false_eq_true, if_false, hmember]

/-- A member that nobody asks for is passed over, if it has the right shape. -/
theorem scanMembers_unknown (hfind : rules.find? (·.name == name) = none)
    (hshape : value.shapeFault? = none) :
    Json.scanMembers rules ending seen ((key, value) :: ms)
      = Json.scanMembers rules ending seen ms := by
  rw [Json.scanMembers, hkey]
  simp only [Except.mapError, bind, Except.bind, hfind, Decoder.anything, hshape]

end

/-- Members of different names that the rules accept are all collected. -/
theorem scanMembers_written (hrules : ∀ p ∈ t, Admits rules p)
    (hfresh : ∀ p ∈ t, seen.lookup p.1 = none) (hkeys : (t.map (·.1)).Nodup) :
    Json.scanMembers rules .closed seen (t.map fun p => (writtenString p.1, p.2))
      = .ok (t.reverse ++ seen) := by
  induction t generalizing seen with
  | nil => rfl
  | cons p t ih =>
    obtain ⟨key, raw⟩ := p
    obtain ⟨⟨r, hfind, hcheck⟩, hrest⟩ := List.forall_mem_cons.1 hrules
    obtain ⟨hnew, hfresh⟩ := List.forall_mem_cons.1 hfresh
    obtain ⟨hkey, hkeys⟩ := List.nodup_cons.1 hkeys
    have hlater : ∀ q ∈ t, List.lookup q.1 ((key, raw) :: seen) = none := by
      intro q hq
      have hne : q.1 ≠ key := by
        intro heq
        exact hkey (heq ▸ List.mem_map.2 ⟨q, hq, rfl⟩)
      rw [List.lookup_cons, beq_false_of_ne hne]
      exact hfresh q hq
    rw [List.map_cons, scanMembers_known (text_writtenString key) hfind hnew hcheck,
      ih hrest hlater hkeys, List.reverse_cons, List.append_assoc]
    rfl

/-- A record is conveyed by an object with its members, if it can be put together from their
    trees. -/
theorem conveys_record {title : String} {build : Table → Except Json.Fault α}
    {ms : List (String × Json)} {a : α}
    (hms : List.Forall₂ (fun m p => m.1 = p.1 ∧ Reads m.2 p.2) ms t)
    (hrules : ∀ p ∈ t, Admits rules p) (hkeys : (t.map (·.1)).Nodup)
    (hbuild : build t.reverse = .ok a) :
    Conveys (.record title rules build) (.object ms) a := by
  refine ⟨.object (t.map fun p => (writtenString p.1, p.2)) .closed, ?_, ?_⟩
  · refine Json.reads_object (List.forall₂_map_right_iff.2 (hms.imp ?_))
    rintro ⟨_, j⟩ ⟨key, raw⟩ ⟨rfl, hreads⟩
    exact ⟨rfl, hreads⟩
  · rw [Decoder.record, scanMembers_written hrules (fun _ _ => rfl) hkeys, List.append_nil]
    exact hbuild

/-- What stands for a value of a field in an object, and its tree: the member with the name of
    the field, or nothing for the default. -/
inductive Fills (f : RecordField α) (a : α) : List (String × Json) → Table → Prop
  | member {j : Json} {raw : Raw} (hreads : Reads j raw) (hdecode : f.decode raw = .ok a) :
    Fills f a [(f.name, j)] [(f.name, raw)]
  | leftOut (hdefault : f.default? = some a) : Fills f a [] []

/-- What stands for the fields of a record, in their order. No two fields have the same name. -/
inductive Written : List Rule → List (String × Json) → Table → Prop
  | nil : Written [] [] []
  | cons {β : Type} {f : RecordField β} {b : β} {ms ms' : List (String × Json)} {t t' : Table}
    {rules : List Rule} (hfills : Fills f b ms t) (hnew : ∀ r ∈ rules, r.name ≠ f.name)
    (hrest : Written rules ms' t') : Written (f.rule :: rules) (ms ++ ms') (t ++ t')

section

variable {f : RecordField α} {a : α} {ms : List (String × Json)}

theorem Conveys.fills {j : Json} (h : Conveys f.decode j a) : ∃ t, Fills f a [(f.name, j)] t := by
  obtain ⟨raw, hreads, hdecode⟩ := h
  exact ⟨_, .member hreads hdecode⟩

theorem Fills.key_eq (h : Fills f a ms t) : ∀ p ∈ t, p.1 = f.name := by
  cases h with
  | member => exact List.forall_mem_singleton.2 rfl
  | leftOut => exact List.forall_mem_nil _

theorem Written.later (h : Written rules ms t) {name : String}
    (hnew : ∀ r ∈ rules, r.name ≠ name) : ∀ p ∈ t, p.1 ≠ name := by
  induction h with
  | nil => exact List.forall_mem_nil _
  | cons hfills _ _ ih =>
    obtain ⟨hfirst, hrest⟩ := List.forall_mem_cons.1 hnew
    refine List.forall_mem_append.2 ⟨fun p hp => ?_, ih hrest⟩
    rw [hfills.key_eq p hp]
    exact hfirst

/-- The last fields are collected first, and each is looked up by its own name. -/
theorem Fills.get_head (h : Fills f a ms t) (hnew : ∀ r ∈ rules, r.name ≠ f.name)
    {ms' : List (String × Json)} {t' : Table} (hrest : Written rules ms' t') :
    f.get (t ++ t').reverse = .ok a := by
  have hnone : t'.reverse.lookup f.name = none := by
    rw [List.lookup_eq_none_iff]
    intro p hp
    exact bne_iff_ne.2 (Ne.symm (hrest.later hnew p (List.mem_reverse.1 hp)))
  rw [RecordField.get, List.reverse_append, List.lookup_append, hnone, Option.none_or]
  cases h with
  | member _ hdecode =>
    rw [List.reverse_singleton, List.lookup_cons_self]
    exact hdecode
  | leftOut hdefault =>
    rw [hdefault]
    rfl

theorem Fills.get_tail (h : Fills f a ms t) {β : Type} {g : RecordField β}
    (hne : f.name ≠ g.name) (t' : Table) : g.get (t ++ t').reverse = g.get t'.reverse := by
  have hnone : t.reverse.lookup g.name = none := by
    rw [List.lookup_eq_none_iff]
    intro p hp
    rw [h.key_eq p (List.mem_reverse.1 hp)]
    exact bne_iff_ne.2 (Ne.symm hne)
  rw [RecordField.get, List.reverse_append, List.lookup_append, hnone, Option.or_none,
    RecordField.get]

theorem Written.forall₂ (h : Written rules ms t) :
    List.Forall₂ (fun m p => m.1 = p.1 ∧ Reads m.2 p.2) ms t := by
  induction h with
  | nil => exact .nil
  | cons hfills _ _ ih =>
    cases hfills with
    | member hreads _ => exact .cons ⟨rfl, hreads⟩ ih
    | leftOut => exact ih

theorem Written.nodup (h : Written rules ms t) : (t.map (·.1)).Nodup := by
  induction h with
  | nil => exact List.nodup_nil
  | cons hfills hnew hrest ih =>
    cases hfills with
    | member =>
      refine List.nodup_cons.2 ⟨fun hmem => ?_, ih⟩
      obtain ⟨p, hp, heq⟩ := List.mem_map.1 hmem
      exact hrest.later hnew p hp heq
    | leftOut => exact ih

theorem Written.admits (h : Written rules ms t) : ∀ p ∈ t, Admits rules p := by
  induction h with
  | nil => exact List.forall_mem_nil _
  | cons hfills hnew hrest ih =>
    refine List.forall_mem_append.2 ⟨?_, fun p hp => ?_⟩
    · cases hfills with
      | member _ hdecode =>
        refine List.forall_mem_singleton.2 (admits_of_decode ?_ hdecode)
        exact List.find?_cons_of_pos (beq_self_eq_true _)
      | leftOut => exact List.forall_mem_nil _
    · obtain ⟨r, hfind, hcheck⟩ := ih p hp
      refine ⟨r, ?_, hcheck⟩
      rw [List.find?_cons_of_neg, hfind]
      exact fun heq => hrest.later hnew p hp (beq_iff_eq.1 heq).symm

/-- A record is conveyed by what is written for its fields. -/
theorem Written.conveys (h : Written rules ms t) {title : String}
    {build : Table → Except Json.Fault α} (hbuild : build t.reverse = .ok a) :
    Conveys (.record title rules build) (.object ms) a :=
  conveys_record h.forall₂ h.admits h.nodup hbuild

end

/-! ## Records of up to three fields -/

section

variable {β γ δ : Type} {title : String} {f : RecordField α} {g : RecordField β}
variable {h : RecordField γ} {xs ys zs : List (String × Json)} {a : α} {b : β} {c : γ}

theorem conveys_one_field {make : α → δ} (hx : ∃ t, Fills f a xs t) :
    Conveys (.record title [f.rule] fun t => do pure (make (← f.get t))) (.object xs)
      (make a) := by
  obtain ⟨t, hx⟩ := hx
  have hnone : ∀ r ∈ ([] : List Rule), r.name ≠ f.name := List.forall_mem_nil _
  have hwritten : Written [f.rule] (xs ++ []) (t ++ []) := .cons hx hnone .nil
  rw [List.append_nil xs] at hwritten
  refine hwritten.conveys ?_
  have hf : f.get (t ++ []).reverse = .ok a := hx.get_head hnone .nil
  rw [hf]
  rfl

theorem conveys_two_fields {make : α → β → δ} (hfg : f.name ≠ g.name) (hx : ∃ t, Fills f a xs t)
    (hy : ∃ t, Fills g b ys t) :
    Conveys (.record title [f.rule, g.rule] fun t => do pure (make (← f.get t) (← g.get t)))
      (.object (xs ++ ys)) (make a b) := by
  obtain ⟨t, hx⟩ := hx
  obtain ⟨u, hy⟩ := hy
  have hnone : ∀ r ∈ ([] : List Rule), r.name ≠ g.name := List.forall_mem_nil _
  have hnew : ∀ r ∈ [g.rule], r.name ≠ f.name := List.forall_mem_singleton.2 hfg.symm
  have hrest : Written [g.rule] (ys ++ []) (u ++ []) := .cons hy hnone .nil
  have hwritten : Written [f.rule, g.rule] (xs ++ (ys ++ [])) (t ++ (u ++ [])) :=
    .cons hx hnew hrest
  rw [List.append_nil ys] at hwritten
  refine hwritten.conveys ?_
  have hf : f.get (t ++ (u ++ [])).reverse = .ok a := hx.get_head hnew hrest
  have hg : g.get (t ++ (u ++ [])).reverse = .ok b :=
    (hx.get_tail hfg _).trans (hy.get_head hnone .nil)
  rw [hf, hg]
  rfl

theorem conveys_three_fields {make : α → β → γ → δ} (hfg : f.name ≠ g.name)
    (hfh : f.name ≠ h.name) (hgh : g.name ≠ h.name) (hx : ∃ t, Fills f a xs t)
    (hy : ∃ t, Fills g b ys t) (hz : ∃ t, Fills h c zs t) :
    Conveys (.record title [f.rule, g.rule, h.rule] fun t => do
        pure (make (← f.get t) (← g.get t) (← h.get t)))
      (.object (xs ++ (ys ++ zs))) (make a b c) := by
  obtain ⟨t, hx⟩ := hx
  obtain ⟨u, hy⟩ := hy
  obtain ⟨v, hz⟩ := hz
  have hnone : ∀ r ∈ ([] : List Rule), r.name ≠ h.name := List.forall_mem_nil _
  have hnewg : ∀ r ∈ [h.rule], r.name ≠ g.name := List.forall_mem_singleton.2 hgh.symm
  have hnewf : ∀ r ∈ [g.rule, h.rule], r.name ≠ f.name :=
    List.forall_mem_cons.2 ⟨hfg.symm, List.forall_mem_singleton.2 hfh.symm⟩
  have hlast : Written [h.rule] (zs ++ []) (v ++ []) := .cons hz hnone .nil
  have hrest : Written [g.rule, h.rule] (ys ++ (zs ++ [])) (u ++ (v ++ [])) :=
    .cons hy hnewg hlast
  have hwritten : Written [f.rule, g.rule, h.rule] (xs ++ (ys ++ (zs ++ [])))
      (t ++ (u ++ (v ++ []))) := .cons hx hnewf hrest
  rw [List.append_nil zs] at hwritten
  refine hwritten.conveys ?_
  have hf : f.get (t ++ (u ++ (v ++ []))).reverse = .ok a := hx.get_head hnewf hrest
  have hg : g.get (t ++ (u ++ (v ++ []))).reverse = .ok b :=
    (hx.get_tail hfg _).trans (hy.get_head hnewg hlast)
  have hh : h.get (t ++ (u ++ (v ++ []))).reverse = .ok c :=
    (hx.get_tail hfh _).trans ((hy.get_tail hgh _).trans (hz.get_head hnone .nil))
  rw [hf, hg, hh]
  rfl

end

end

/-! ## Parts of messages -/

namespace Message

theorem conveys_service (s : Service) : Conveys Service.decode s.toJson s := by
  obtain ⟨name, path⟩ := s
  have hname := (conveys_string name).fills (f := Fields.serviceName)
  have hne : Fields.serviceName.name ≠ Fields.deployPath.name := by decide
  cases path with
  | none => exact conveys_two_fields hne hname ⟨_, .leftOut rfl⟩
  | some path =>
    exact conveys_two_fields hne hname ((conveys_optional path).fills (f := Fields.deployPath))

theorem conveys_endpoint (title : String) (e : Endpoint) :
    Conveys (Endpoint.decode title) e.toJson e :=
  conveys_two_fields (by decide) ((conveys_string e.host).fills (f := Fields.host))
    ((conveys_port e.port).fills (f := Fields.port))

theorem conveys_capabilities (cs : List Capability) :
    Conveys (.list Capability.decode) (Capability.listToJson cs) cs :=
  conveys_list fun c _ => conveys_capability c

theorem conveys_announcement (a : Announcement) : Conveys Announcement.decode a.toJson a :=
  conveys_three_fields (by decide) (by decide) (by decide)
    ((conveys_string a.host).fills (f := Fields.hostOrEmpty))
    ((conveys_port a.port).fills (f := Fields.port))
    ((conveys_capabilities a.capabilities).fills (f := Fields.capabilitiesOrNone))

theorem conveys_address (a : Address) : Conveys Address.decode a.toJson a :=
  conveys_three_fields (by decide) (by decide) (by decide)
    ((conveys_string a.host).fills (f := Fields.host))
    ((conveys_port a.port).fills (f := Fields.port))
    ((conveys_capabilities a.capabilities).fills (f := Fields.capabilities))

/-! ## Messages -/

theorem conveys_registerRequest (r : RegisterRequest) :
    Conveys RegisterRequest.decode r.toJson r :=
  conveys_two_fields (by decide) ((conveys_service r.service).fills (f := Fields.service))
    ((conveys_list fun a _ => conveys_announcement a).fills (f := Fields.announcements))

theorem conveys_registerResponse (r : RegisterResponse) :
    Conveys RegisterResponse.decode r.toJson r :=
  conveys_two_fields (by decide) ((conveys_word r.instanceId).fills (f := Fields.instanceId))
    ((conveys_list fun e _ => conveys_endpoint _ e).fills (f := Fields.endpoints))

theorem conveys_deregisterRequest (r : DeregisterRequest) :
    Conveys DeregisterRequest.decode r.toJson r :=
  conveys_one_field ((conveys_word r.instanceId).fills (f := Fields.instanceId))

theorem conveys_listRequest (r : ListRequest) : Conveys ListRequest.decode r.toJson r :=
  conveys_one_field ((conveys_string r.name).fills (f := Fields.nameOrEmpty))

theorem conveys_targetRequest (r : TargetRequest) : Conveys TargetRequest.decode r.toJson r :=
  conveys_three_fields (by decide) (by decide) (by decide)
    ((conveys_string r.path).fills (f := Fields.pathOrEmpty))
    ((conveys_string r.name).fills (f := Fields.nameOrEmpty))
    ((conveys_capability r.capability).fills (f := Fields.capability))

theorem conveys_lookupRequest (r : LookupRequest) : Conveys LookupRequest.decode r.toJson r :=
  conveys_one_field ((conveys_service r.service).fills (f := Fields.service))

theorem conveys_listing (title : String) (l : Listing) :
    Conveys (Listing.decode title) l.toJson l :=
  conveys_two_fields (by decide) ((conveys_service l.service).fills (f := Fields.service))
    ((conveys_list fun a _ => conveys_address a).fills (f := Fields.addresses))

theorem conveys_listResponse (r : ListResponse) : Conveys ListResponse.decode r.toJson r :=
  conveys_one_field
    ((conveys_list fun l _ => conveys_listing _ l).fills (f := Fields.listings))

theorem conveys_shutdownRequest (r : ShutdownRequest) :
    Conveys ShutdownRequest.decode r.toJson r :=
  conveys_one_field ((conveys_string r.serviceName).fills (f := Fields.shutdownName))

theorem conveys_processShutdownRequest (r : ProcessShutdownRequest) :
    Conveys ProcessShutdownRequest.decode r.toJson r := by
  obtain ⟨host, ports⟩ := r
  have hlist : Conveys (.list .uint16) (.array (ports.map .port)) ports :=
    conveys_list fun p _ => conveys_port p
  have hports := hlist.fills (f := Fields.ports)
  have hne : Fields.hostIfAny.name ≠ Fields.ports.name := by decide
  cases host with
  | none => exact conveys_two_fields (f := Fields.hostIfAny) hne ⟨_, .leftOut rfl⟩ hports
  | some host =>
    exact conveys_two_fields hne ((conveys_optional host).fills (f := Fields.hostIfAny)) hports

theorem conveys_ack (a : Ack) : Conveys Ack.decode a.toJson a := Written.nil.conveys rfl

theorem conveys_errorBody (e : ErrorBody) : Conveys ErrorBody.decode e.toJson e :=
  conveys_one_field ((conveys_string e.error).fills (f := Fields.error))

end Message

/-! ## Claims and conditions -/

open Message

theorem conveys_role (r : Access.Role) : Conveys Access.Role.decode r.toJson r :=
  conveys_named (by cases r <;> decide) (by cases r <;> decide)

theorem conveys_permission (p : Access.Permission) :
    Conveys Access.Permission.decode p.toJson p :=
  conveys_named (by cases p <;> decide) (by cases p <;> decide)

theorem conveys_claims (c : Access.Claims) : Conveys Access.Claims.decode c.toJson c :=
  conveys_three_fields (by decide) (by decide) (by decide)
    ((conveys_string c.subject).fills (f := Fields.subject))
    ((conveys_list fun r _ => conveys_role r).fills (f := Fields.roles))
    ((conveys_size c.expiry).fills (f := Fields.expiry))

theorem conveys_evictionReason (r : EvictionReason) :
    Conveys EvictionReason.decode r.toJson r :=
  conveys_named (by cases r <;> decide) (by cases r <;> decide)

theorem conveys_condition (c : Condition) : Conveys Condition.decode c.toJson c := by
  cases c with
  | live => exact conveys_bare rfl
  | suspect => exact conveys_bare rfl
  | evicted r => exact conveys_holding rfl (conveys_evictionReason r).map

end ServiceRegistry
