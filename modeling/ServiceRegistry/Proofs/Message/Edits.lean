/-
  ServiceRegistry.Proofs.Message.Edits

  Other ways to write a message. In an object the members may stand in any order, members of other
  names may be put between them, and some members may be left out (`record`); a list is edited
  item by item (`listOf`), and all else is left as it is (`canonical`). An edit counts the members
  that it leaves out although they must be given.

  Decoders are followed along the edits (`Handles`). A text that lacks nothing is read as the same
  value: the table of a record is collected in another order, but every field finds its own member
  in it. A text that lacks something is refused, wherever in it that is.
-/
import ServiceRegistry.Proofs.Json.Source
import ServiceRegistry.Proofs.Message.RoundTrip

namespace ServiceRegistry

open Json (Blanks Decoder Key RawString Raw RecordField Rule Source Stroke Table)

/-! ## Edits -/

/-- The text of a key is that of a name. -/
def Json.Key.Spells (key : Key) (name : String) : Prop :=
  (Stroke.string key.strokes).text = .ok name

theorem Json.Key.Spells.eq {key : Key} {name other : String} (h : key.Spells name)
    (hother : key.Spells other) : name = other :=
  Except.ok.inj (h.symm.trans hother)

namespace Message

/-- The texts that a value may be written as, with the number of members that they lack. -/
abbrev Edits : Type := Json → Source → Nat → Prop

/-- The text of the value itself. Here as elsewhere blanks around a value do not count. -/
def canonical : Edits := fun j src lacking => src.trimmed.bytes = j.bytes ∧ lacking = 0

/-- Edits of items. -/
inductive ItemsEdited (e : Edits) : List Json → List Source → Nat → Prop
  | nil : ItemsEdited e [] [] 0
  | cons {j : Json} {js : List Json} {src : Source} {srcs : List Source} {m n : Nat}
    (hfirst : e j src m) (hrest : ItemsEdited e js srcs n) :
    ItemsEdited e (j :: js) (src :: srcs) (m + n)

/-- The items of a list are edited. -/
def listOf (e : Edits) : Edits := fun j src lacking =>
  ∃ js lead srcs, j = .array js ∧ src.trimmed = .array lead srcs ∧ ItemsEdited e js srcs lacking

/-- What a member may be left out for. -/
inductive Absence
  /-- It must be given. -/
  | never
  /-- It has a certain value. -/
  | emptyAs (value : Json)
  /-- There is no value; then it may also be given as null. -/
  | optional

/-- What may be done to a member of a record. -/
structure FieldEdits where
  name : String
  edits : Edits
  absence : Absence

/-- What an edited text has in place of a member, given the value of the member if it has one. -/
inductive FieldEdits.Part (f : FieldEdits) : Option Json → List (Key × Source) → Nat → Prop
  | given {j : Json} {key : Key} {src : Source} {lacking : Nat} (hkey : key.Spells f.name)
    (hedits : f.edits j src lacking) : Part f (some j) [(key, src)] lacking
  | leftOut {j : Json} (habsence : f.absence = .emptyAs j) : Part f (some j) [] 0
  | absent : Part f none [] 0
  | null {key : Key} {src : Source} (hkey : key.Spells f.name) (hnull : src.trimmed = .null)
    (habsence : f.absence = .optional) : Part f none [(key, src)] 0
  | lacking {j : Json} (habsence : f.absence = .never) : Part f (some j) [] 1

/-- What an edited text has in place of the members of an object. -/
inductive Parts (ms : List (String × Json)) : List FieldEdits → List (Key × Source) → Nat → Prop
  | nil : Parts ms [] [] 0
  | cons {f : FieldEdits} {fs : List FieldEdits} {part parts : List (Key × Source)} {m n : Nat}
    (hpart : f.Part (ms.lookup f.name) part m) (hrest : Parts ms fs parts n) :
    Parts ms (f :: fs) (part ++ parts) (m + n)

/-- The members of an object are edited and put in another order, with members of other names
    among them. -/
def record (fs : List FieldEdits) : Edits := fun j src lacking =>
  ∃ ms lead members known unknown, j = .object ms ∧ src.trimmed = .object lead members ∧
    Parts ms fs known lacking ∧
    (∀ m ∈ unknown, ∃ name, m.1.Spells name ∧ name ∉ fs.map (·.name)) ∧
    members.Perm (known ++ unknown)

end Message

/-! ## Collecting members -/

section

variable {rules : List Rule} {seen t : Table} {ms : List (RawString × Raw)} {name : String}

/-- What becomes of the first member of an object. -/
theorem scanMembers_cons (rules : List Rule) (seen : Table) (key : RawString) (value : Raw)
    (ms : List (RawString × Raw)) :
    (∃ fault, Json.scanMembers rules .closed seen ((key, value) :: ms) = .error fault) ∨
    ∃ name, key.text = .ok name ∧
      ((rules.find? (·.name == name) = none ∧
        Json.scanMembers rules .closed seen ((key, value) :: ms)
          = Json.scanMembers rules .closed seen ms) ∨
      ∃ r, rules.find? (·.name == name) = some r ∧ r.check value = .ok () ∧
        Json.scanMembers rules .closed seen ((key, value) :: ms)
          = Json.scanMembers rules .closed ((name, value) :: seen) ms) := by
  rw [Json.scanMembers]
  cases hkey : key.text with
  | error how => exact .inl ⟨_, rfl⟩
  | ok name =>
    simp only [Except.mapError, bind, Except.bind]
    cases hfind : rules.find? (·.name == name) with
    | none =>
      dsimp only
      cases hshape : Decoder.anything value with
      | error fault => exact .inl ⟨_, rfl⟩
      | ok u => exact .inr ⟨name, rfl, .inl ⟨hfind, rfl⟩⟩
    | some r =>
      dsimp only
      split
      · exact .inl ⟨_, rfl⟩
      · cases hcheck : r.check value with
        | error fault =>
          rw [Decoder.at, hcheck]
          exact .inl ⟨_, rfl⟩
        | ok u =>
          rw [Decoder.at, hcheck]
          exact .inr ⟨name, rfl, .inr ⟨r, hfind, hcheck, rfl⟩⟩

/-- A member that its rule refuses is the end of the reading, unless something else was before. -/
theorem scanMembers_error {key : RawString} {value : Raw} {r : Rule} {fault : Json.Fault}
    (hmem : (key, value) ∈ ms) (hkey : key.text = .ok name)
    (hfind : rules.find? (·.name == name) = some r) (hcheck : r.check value = .error fault) :
    ∃ fault, Json.scanMembers rules .closed seen ms = .error fault := by
  induction ms generalizing seen with
  | nil => cases hmem
  | cons m ms ih =>
    obtain ⟨k, v⟩ := m
    rcases scanMembers_cons rules seen k v ms with herror | ⟨other, hother, hstep⟩
    · exact herror
    · rcases List.mem_cons.1 hmem with heq | hmem
      · obtain ⟨rfl, rfl⟩ := Prod.mk.inj heq
        obtain rfl : name = other := Except.ok.inj (hkey.symm.trans hother)
        rcases hstep with ⟨hnone, -⟩ | ⟨s, hsome, hpass, -⟩
        · rw [hfind] at hnone
          cases hnone
        · obtain rfl : r = s := Option.some.inj (hfind.symm.trans hsome)
          rw [hcheck] at hpass
          cases hpass
      · rcases hstep with ⟨-, hstep⟩ | ⟨_, -, -, hstep⟩
        · rw [hstep]
          exact ih hmem
        · rw [hstep]
          exact ih hmem

/-- A name that no member has is not collected. -/
theorem lookup_of_scanMembers (h : Json.scanMembers rules .closed seen ms = .ok t)
    (hname : ∀ m ∈ ms, m.1.text ≠ .ok name) : t.lookup name = seen.lookup name := by
  induction ms generalizing seen with
  | nil =>
    obtain rfl : seen = t := Except.ok.inj h
    rfl
  | cons m ms ih =>
    obtain ⟨k, v⟩ := m
    obtain ⟨hk, hms⟩ := List.forall_mem_cons.1 hname
    rcases scanMembers_cons rules seen k v ms with ⟨fault, herror⟩ | ⟨other, hother, hstep⟩
    · rw [herror] at h
      cases h
    · rcases hstep with ⟨-, hstep⟩ | ⟨_, -, -, hstep⟩
      · rw [hstep] at h
        exact ih h hms
      · rw [hstep] at h
        have hne : name ≠ other := by
          rintro rfl
          exact hk hother
        rw [ih h hms, List.lookup_cons, beq_false_of_ne hne]

/-- A member that rules ask for, with its name. -/
def asked? (rules : List Rule) (m : RawString × Raw) : Option (String × Raw) :=
  m.1.text.toOption.bind fun name =>
    if (rules.find? (·.name == name)).isSome then some (name, m.2) else none

/-- The members that rules ask for. -/
def collected (rules : List Rule) (ms : List (RawString × Raw)) : Table :=
  ms.filterMap (asked? rules)

/-- A member is not refused: its rule accepts it, or it has no rule. -/
def Passes (rules : List Rule) (m : RawString × Raw) : Prop :=
  ∃ name, m.1.text = .ok name ∧ (Admits rules (name, m.2) ∨
    rules.find? (·.name == name) = none ∧ m.2.shapeFault? = none)

theorem collected_cons {key : RawString} {value : Raw} (hkey : key.text = .ok name) :
    collected rules ((key, value) :: ms)
      = (if (rules.find? (·.name == name)).isSome then [(name, value)] else [])
        ++ collected rules ms := by
  have hasked : asked? rules (key, value)
      = if (rules.find? (·.name == name)).isSome then some (name, value) else none := by
    rw [asked?, hkey]
    rfl
  rw [collected, List.filterMap_cons, hasked]
  cases rules.find? (·.name == name) with
  | none => rfl
  | some r => rfl

/-- Members that are not refused are collected if there is a rule for them. -/
theorem scanMembers_collected (hms : ∀ m ∈ ms, Passes rules m)
    (hkeys : ((collected rules ms).map (·.1)).Nodup)
    (hfresh : ∀ p ∈ collected rules ms, seen.lookup p.1 = none) :
    Json.scanMembers rules .closed seen ms = .ok ((collected rules ms).reverse ++ seen) := by
  induction ms generalizing seen with
  | nil => rfl
  | cons m ms ih =>
    obtain ⟨key, value⟩ := m
    obtain ⟨⟨name, hkey, hpasses⟩, hms⟩ := List.forall_mem_cons.1 hms
    rw [collected_cons hkey] at hkeys hfresh ⊢
    rcases hpasses with ⟨r, hfind, hcheck⟩ | ⟨hnone, hshape⟩
    · rw [hfind, Option.isSome_some, if_pos rfl, List.singleton_append] at hkeys hfresh ⊢
      obtain ⟨hnew, hfresh⟩ := List.forall_mem_cons.1 hfresh
      obtain ⟨hother, hkeys⟩ := List.nodup_cons.1 hkeys
      have hlater : ∀ p ∈ collected rules ms, List.lookup p.1 ((name, value) :: seen) = none := by
        intro p hp
        have hne : p.1 ≠ name := fun heq => hother (List.mem_map.2 ⟨p, hp, heq⟩)
        rw [List.lookup_cons, beq_false_of_ne hne]
        exact hfresh p hp
      rw [scanMembers_known hkey hfind hnew hcheck, ih hms hkeys hlater, List.reverse_cons,
        List.append_assoc]
      rfl
    · rw [hnone, Option.isSome_none, if_neg Bool.false_ne_true, List.nil_append] at hkeys hfresh ⊢
      rw [scanMembers_unknown hkey hnone hshape]
      exact ih hms hkeys hfresh

/-- Where every name stands once, the table has what stands there. -/
theorem lookup_of_mem {value : Raw} (hkeys : (t.map (·.1)).Nodup) (hmem : (name, value) ∈ t) :
    t.lookup name = some value := by
  induction t with
  | nil => cases hmem
  | cons p t ih =>
    obtain ⟨key, raw⟩ := p
    obtain ⟨hother, hkeys⟩ := List.nodup_cons.1 hkeys
    rw [List.lookup_cons]
    rcases List.mem_cons.1 hmem with heq | hlater
    · obtain ⟨rfl, rfl⟩ := Prod.mk.inj heq
      rw [beq_self_eq_true]
    · have hne : name ≠ key := by
        rintro rfl
        exact hother (List.mem_map.2 ⟨_, hlater, rfl⟩)
      rw [beq_false_of_ne hne]
      exact ih hkeys hlater

end

/-! ## Reading texts -/

section

variable {α : Type} {d : Decoder α} (src : Source)

theorem Json.Source.readFirst_eq : d.readFirst src.bytes = d src.tree := by
  obtain ⟨left, hread, -⟩ := src.read
  rw [Decoder.readFirst, hread]

theorem Json.Source.readWhole_eq : d.readWhole src.bytes = d src.tree := by
  obtain ⟨left, hread, hleft⟩ := src.read
  rw [Decoder.readWhole, hread]
  simp only [if_pos hleft]
  cases d src.tree with
  | error fault => rfl
  | ok a => rfl

end

/-! ## Reading edited texts -/

namespace Message

section

variable {α β : Type} {d : Decoder α} {e : Edits}

/-- A text is read as a value if it lacks nothing, and refused otherwise. -/
def Decodes (d : Decoder α) (a : α) (src : Source) (lacking : Nat) : Prop :=
  (lacking = 0 → d src.tree = .ok a) ∧ (0 < lacking → ∃ fault, d src.tree = .error fault)

/-- The edited texts of values are read as they should be. -/
def Handles (d : Decoder α) (write : α → Json) (e : Edits) : Prop :=
  ∀ a src lacking, e (write a) src lacking → Decodes d a src lacking

theorem tree_eq_of_reads {j : Json} {raw : Raw} {src : Source} (h : j.Reads raw)
    (hbytes : src.trimmed.bytes = j.bytes) : src.tree = raw := by
  obtain ⟨left, hread, -⟩ := src.trimmed.read
  rw [hbytes, h.read, src.tree_trimmed] at hread
  exact (Prod.mk.inj hread).1.symm

theorem decodes_canonical {j : Json} {a : α} {src : Source} {lacking : Nat} (h : Conveys d j a)
    (hedits : canonical j src lacking) : Decodes d a src lacking := by
  obtain ⟨raw, hreads, hdecode⟩ := h
  obtain ⟨hbytes, rfl⟩ := hedits
  refine ⟨fun _ => ?_, fun h => absurd h (Nat.lt_irrefl 0)⟩
  rw [tree_eq_of_reads hreads hbytes, hdecode]

theorem handles_canonical {write : α → Json} (h : ∀ a, Conveys d (write a) a) :
    Handles d write canonical :=
  fun a _ _ => decodes_canonical (h a)

/-! ### Lists -/

theorem items_of_edited {write : α → Json} (h : Handles d write e) {as : List α}
    {srcs : List Source} {lacking : Nat} (hedits : ItemsEdited e (as.map write) srcs lacking)
    (i : Nat) :
    (lacking = 0 → Decoder.items d .closed i (Source.itemTrees srcs) = .ok as) ∧
    (0 < lacking →
      ∃ fault, Decoder.items d .closed i (Source.itemTrees srcs) = .error fault) := by
  induction as generalizing srcs lacking i with
  | nil =>
    cases hedits
    exact ⟨fun _ => rfl, fun h => absurd h (Nat.lt_irrefl 0)⟩
  | cons a as ih =>
    cases hedits with
    | @cons _ _ src srcs m n hfirst hrest =>
      obtain ⟨hgood, hbad⟩ := h a src m hfirst
      obtain ⟨hgoods, hbads⟩ := ih hrest (i + 1)
      rw [Source.itemTrees, Decoder.items, Decoder.at]
      constructor
      · intro hnone
        obtain ⟨rfl, rfl⟩ := Nat.add_eq_zero_iff.1 hnone
        rw [hgood rfl, hgoods rfl]
        rfl
      · intro hsome
        by_cases hm : 0 < m
        · obtain ⟨fault, hfault⟩ := hbad hm
          rw [hfault]
          exact ⟨_, rfl⟩
        · obtain ⟨fault, hfault⟩ := hbads (by omega)
          rw [hgood (by omega), hfault]
          exact ⟨_, rfl⟩

theorem Handles.list {write : α → Json} (h : Handles d write e) :
    Handles (.list d) (fun as => .array (as.map write)) (listOf e) := by
  rintro as src lacking ⟨js, lead, srcs, harray, hsrc, hedits⟩
  cases harray
  rw [Decodes, ← src.tree_trimmed, hsrc]
  exact items_of_edited h hedits 0

end

/-! ### Fields -/

/-- A field of a record and the value that it should have. -/
structure Slot where
  {type : Type}
  field : RecordField type
  value : type

namespace Slot

/-- The name of the field. -/
def name (s : Slot) : String := s.field.name

/-- What an edited text has in place of a member does for the field. -/
inductive Holds (s : Slot) : List (Key × Source) → Nat → Prop
  | given {key : Key} {src : Source} {lacking : Nat} (hkey : key.Spells s.name)
    (hdecodes : Decodes s.field.decode s.value src lacking) : Holds s [(key, src)] lacking
  | leftOut (hdefault : s.field.default? = some s.value) : Holds s [] 0
  | lacking (hdefault : s.field.default? = none) : Holds s [] 1

/-- However a member is edited, it does for the field. -/
structure Fits (ms : List (String × Json)) (f : FieldEdits) (s : Slot) : Prop where
  name_eq : f.name = s.name
  holds : ∀ part lacking, f.Part (ms.lookup f.name) part lacking → s.Holds part lacking

/-- What an edited text has in place of the members of an object does for the fields. -/
inductive AllHold : List Slot → List (Key × Source) → Nat → Prop
  | nil : AllHold [] [] 0
  | cons {s : Slot} {slots : List Slot} {part parts : List (Key × Source)} {m n : Nat}
    (hpart : s.Holds part m) (hrest : AllHold slots parts n) :
    AllHold (s :: slots) (part ++ parts) (m + n)

theorem allHold_of_parts {ms : List (String × Json)} {fs : List FieldEdits} {slots : List Slot}
    {known : List (Key × Source)} {lacking : Nat} (hfits : List.Forall₂ (Fits ms) fs slots)
    (h : Parts ms fs known lacking) : AllHold slots known lacking := by
  induction h generalizing slots with
  | nil =>
    cases hfits
    exact .nil
  | cons hpart _ ih =>
    cases hfits with
    | cons hf hrest => exact .cons (hf.holds _ _ hpart) (ih hrest)

section

variable {slots : List Slot} {known : List (Key × Source)} {lacking : Nat} {rules : List Rule}

theorem Holds.spells {s : Slot} (h : s.Holds known lacking) : ∀ m ∈ known, m.1.Spells s.name := by
  cases h with
  | given hkey _ => exact List.forall_mem_singleton.2 hkey
  | leftOut => exact List.forall_mem_nil _
  | lacking => exact List.forall_mem_nil _

theorem AllHold.spells (h : AllHold slots known lacking) :
    ∀ m ∈ known, ∃ s ∈ slots, m.1.Spells s.name := by
  induction h with
  | nil => exact List.forall_mem_nil _
  | cons hpart _ ih =>
    refine List.forall_mem_append.2 ⟨fun m hm => ⟨_, List.mem_cons_self, hpart.spells m hm⟩, ?_⟩
    intro m hm
    obtain ⟨s, hs, hspells⟩ := ih m hm
    exact ⟨s, List.mem_cons_of_mem _ hs, hspells⟩

/-- A text that lacks something has a member that is refused, or none for a field that must be
    given. -/
theorem AllHold.exists_bad (h : AllHold slots known lacking) (hlacking : 0 < lacking)
    (hnames : (slots.map name).Nodup) :
    ∃ s ∈ slots,
      (∃ m ∈ known, m.1.Spells s.name ∧ ∃ fault, s.field.decode m.2.tree = .error fault) ∨
      (s.field.default? = none ∧ ∀ m ∈ known, ¬ m.1.Spells s.name) := by
  induction h with
  | nil => exact absurd hlacking (Nat.lt_irrefl 0)
  | @cons s slots part parts m n hpart hrest ih =>
    obtain ⟨hnew, hnames⟩ := List.nodup_cons.1 hnames
    -- The members of the others have other names.
    have hothers : ∀ x ∈ parts, ¬ x.1.Spells s.name := by
      intro x hx hspells
      obtain ⟨t, ht, hother⟩ := hrest.spells x hx
      exact hnew (List.mem_map.2 ⟨t, ht, hother.eq hspells⟩)
    by_cases hn : 0 < n
    · obtain ⟨t, ht, hbad⟩ := ih hn hnames
      refine ⟨t, List.mem_cons_of_mem _ ht, hbad.imp ?_ ?_⟩
      · rintro ⟨x, hx, hspells⟩
        exact ⟨x, List.mem_append_right _ hx, hspells⟩
      · rintro ⟨hdefault, hnone⟩
        refine ⟨hdefault, List.forall_mem_append.2 ⟨fun x hx hspells => ?_, hnone⟩⟩
        exact hnew (List.mem_map.2 ⟨t, ht, hspells.eq (hpart.spells x hx)⟩)
    · refine ⟨s, List.mem_cons_self, ?_⟩
      cases hpart with
      | given hkey hdecodes =>
        exact .inl ⟨_, List.mem_append_left _ List.mem_cons_self, hkey, hdecodes.2 (by omega)⟩
      | leftOut => omega
      | lacking hdefault => exact .inr ⟨hdefault, hothers⟩

/-- The table of a text has the members of fields and no others. -/
theorem AllHold.keys_sublist (h : AllHold slots known lacking)
    (hrules : ∀ s ∈ slots, rules.find? (·.name == s.name) = some s.field.rule) :
    ((collected rules (Source.memberTrees known)).map (·.1)).Sublist (slots.map name) := by
  induction h with
  | nil => exact List.Sublist.refl _
  | cons hpart _ ih =>
    obtain ⟨hfind, hrules⟩ := List.forall_mem_cons.1 hrules
    cases hpart with
    | given hkey _ =>
      rw [List.singleton_append, Source.memberTrees, collected_cons hkey, hfind]
      exact (ih hrules).cons_cons _
    | leftOut => exact (ih hrules).cons _
    | lacking => exact (ih hrules).cons _

/-- Nothing in a text that lacks nothing is refused. -/
theorem AllHold.passes (h : AllHold slots known 0)
    (hrules : ∀ s ∈ slots, rules.find? (·.name == s.name) = some s.field.rule) :
    ∀ m ∈ Source.memberTrees known, Passes rules m := by
  generalize hlacking : 0 = lacking at h
  induction h with
  | nil => exact List.forall_mem_nil _
  | cons hpart _ ih =>
    obtain ⟨rfl, rfl⟩ := Nat.add_eq_zero_iff.1 hlacking.symm
    obtain ⟨hfind, hrules⟩ := List.forall_mem_cons.1 hrules
    cases hpart with
    | given hkey hdecodes =>
      rw [List.singleton_append, Source.memberTrees]
      refine List.forall_mem_cons.2 ⟨⟨_, hkey, .inl ?_⟩, ih hrules rfl⟩
      exact admits_of_decode hfind (hdecodes.1 rfl)
    | leftOut => exact ih hrules rfl

/-- In a text that lacks nothing every field finds its value. -/
theorem AllHold.value (h : AllHold slots known 0) (hnames : (slots.map name).Nodup)
    (hrules : ∀ s ∈ slots, rules.find? (·.name == s.name) = some s.field.rule) :
    ∀ s ∈ slots, (∃ raw, (s.name, raw) ∈ collected rules (Source.memberTrees known) ∧
        s.field.decode raw = .ok s.value) ∨
      (s.name ∉ (collected rules (Source.memberTrees known)).map (·.1) ∧
        s.field.default? = some s.value) := by
  generalize hlacking : 0 = lacking at h
  induction h with
  | nil => exact List.forall_mem_nil _
  | @cons s slots part parts m n hpart hrest ih =>
    obtain ⟨rfl, rfl⟩ := Nat.add_eq_zero_iff.1 hlacking.symm
    obtain ⟨hnew, hnames⟩ := List.nodup_cons.1 hnames
    obtain ⟨hfind, hrules⟩ := List.forall_mem_cons.1 hrules
    have hvalues := ih hnames hrules rfl
    cases hpart with
    | given hkey hdecodes =>
      rw [List.singleton_append, Source.memberTrees, collected_cons hkey, hfind]
      refine List.forall_mem_cons.2 ⟨.inl ⟨_, List.mem_cons_self, hdecodes.1 rfl⟩, fun t ht => ?_⟩
      refine (hvalues t ht).imp ?_ ?_
      · rintro ⟨raw, hmem, hdecode⟩
        exact ⟨raw, List.mem_cons_of_mem _ hmem, hdecode⟩
      · rintro ⟨hnone, hdefault⟩
        refine ⟨fun hmem => ?_, hdefault⟩
        rcases List.mem_cons.1 hmem with heq | hmem
        · exact hnew (List.mem_map.2 ⟨t, ht, heq⟩)
        · exact hnone hmem
    | leftOut hdefault =>
      refine List.forall_mem_cons.2 ⟨.inr ⟨fun hmem => hnew ?_, hdefault⟩, hvalues⟩
      exact (hrest.keys_sublist hrules).subset hmem

end

end Slot

/-! ### Records -/

section

variable {ms : List (String × Json)} {fs : List FieldEdits} {slots : List Slot}
variable {known unknown members : List (Key × Source)} {lacking : Nat}

/-- The rules of fields. -/
def rulesOf (slots : List Slot) : List Rule := slots.map (·.field.rule)

theorem find?_rulesOf (hnames : (slots.map Slot.name).Nodup) :
    ∀ s ∈ slots, (rulesOf slots).find? (·.name == s.name) = some s.field.rule := by
  induction slots with
  | nil => exact List.forall_mem_nil _
  | cons t slots ih =>
    obtain ⟨hnew, hnames⟩ := List.nodup_cons.1 hnames
    rw [rulesOf, List.map_cons]
    refine List.forall_mem_cons.2 ⟨List.find?_cons_of_pos (beq_self_eq_true _), fun s hs => ?_⟩
    rw [List.find?_cons_of_neg]
    · exact ih hnames s hs
    · exact fun heq => hnew (List.mem_map.2 ⟨s, hs, (beq_iff_eq.1 heq).symm⟩)

theorem find?_rulesOf_eq_none {name : String} (h : name ∉ slots.map Slot.name) :
    (rulesOf slots).find? (·.name == name) = none := by
  refine List.find?_eq_none.2 fun r hr heq => h ?_
  obtain ⟨s, hs, rfl⟩ := List.mem_map.1 hr
  exact List.mem_map.2 ⟨s, hs, beq_iff_eq.1 heq⟩

/-- A member of another name. -/
def Stray (slots : List Slot) (m : Key × Source) : Prop :=
  ∃ name, m.1.Spells name ∧ name ∉ slots.map Slot.name

theorem Stray.not_spells {m : Key × Source} (h : Stray slots m) {s : Slot} (hs : s ∈ slots) :
    ¬ m.1.Spells s.name := by
  obtain ⟨name, hname, hnew⟩ := h
  intro hspells
  exact hnew (List.mem_map.2 ⟨s, hs, hspells.eq hname⟩)

theorem Stray.passes {m : Key × Source} (h : Stray slots m) :
    Passes (rulesOf slots) (Stroke.string m.1.strokes, m.2.tree) := by
  obtain ⟨name, hname, hnew⟩ := h
  exact ⟨name, hname, .inr ⟨find?_rulesOf_eq_none hnew, m.2.shapeFault?_tree⟩⟩

/-- Members of other names are not collected. -/
theorem collected_stray (h : ∀ m ∈ unknown, Stray slots m) :
    collected (rulesOf slots) (Source.memberTrees unknown) = [] := by
  induction unknown with
  | nil => rfl
  | cons m ms ih =>
    obtain ⟨key, value⟩ := m
    obtain ⟨⟨name, hkey, hnew⟩, hms⟩ := List.forall_mem_cons.1 h
    rw [Source.memberTrees, collected_cons hkey, find?_rulesOf_eq_none hnew, ih hms]
    rfl

/-- Order and members of other names make no difference to what is collected. -/
theorem collected_perm (hperm : members.Perm (known ++ unknown))
    (hunknown : ∀ m ∈ unknown, Stray slots m) :
    (collected (rulesOf slots) (Source.memberTrees members)).Perm
      (collected (rulesOf slots) (Source.memberTrees known)) := by
  have htrees : (Source.memberTrees members).Perm
      (Source.memberTrees known ++ Source.memberTrees unknown) := by
    simp only [Source.memberTrees_eq, ← List.map_append]
    exact hperm.map _
  have hcollected := htrees.filterMap (asked? (rulesOf slots))
  have hstray := collected_stray hunknown
  unfold collected at hstray ⊢
  rwa [List.filterMap_append, hstray, List.append_nil] at hcollected

/-- In a text that lacks nothing every field is found. -/
theorem exists_table (h : Slot.AllHold slots known 0) (hnames : (slots.map Slot.name).Nodup)
    (hperm : members.Perm (known ++ unknown)) (hunknown : ∀ m ∈ unknown, Stray slots m) :
    ∃ t, Json.scanMembers (rulesOf slots) .closed [] (Source.memberTrees members) = .ok t ∧
      ∀ s ∈ slots, s.field.get t = .ok s.value := by
  have hrules := find?_rulesOf hnames
  have hpasses : ∀ m ∈ Source.memberTrees members, Passes (rulesOf slots) m := by
    intro m hm
    rw [Source.memberTrees_eq] at hm
    obtain ⟨x, hx, rfl⟩ := List.mem_map.1 hm
    rcases List.mem_append.1 (hperm.subset hx) with hx | hx
    · refine h.passes hrules _ ?_
      rw [Source.memberTrees_eq]
      exact List.mem_map_of_mem hx
    · exact (hunknown x hx).passes
  have hcollected := collected_perm hperm hunknown
  have hkeys : ((collected (rulesOf slots) (Source.memberTrees members)).map (·.1)).Nodup :=
    (hcollected.map _).nodup_iff.2 (hnames.sublist (h.keys_sublist hrules))
  refine ⟨_, scanMembers_collected hpasses hkeys fun _ _ => rfl, fun s hs => ?_⟩
  rw [List.append_nil]
  rcases h.value hnames hrules s hs with ⟨raw, hmem, hdecode⟩ | ⟨hnone, hdefault⟩
  · have hreverse : ((collected (rulesOf slots) (Source.memberTrees members)).reverse.map
        (·.1)).Nodup := by
      rwa [List.map_reverse, List.nodup_reverse]
    have hlookup : List.lookup s.field.name _ = some raw :=
      lookup_of_mem hreverse (List.mem_reverse.2 (hcollected.symm.subset hmem))
    rw [RecordField.get, hlookup]
    exact hdecode
  · have hlookup : List.lookup s.field.name
        (collected (rulesOf slots) (Source.memberTrees members)).reverse = none := by
      refine List.lookup_eq_none_iff.2 fun p hp => bne_iff_ne.2 fun heq => hnone ?_
      refine ((hcollected.map _).subset (List.mem_map.2 ⟨p, List.mem_reverse.1 hp, heq.symm⟩))
    rw [RecordField.get, hlookup, hdefault]

end

section

variable {α : Type} {title : String} {build : Table → Except Json.Fault α} {a : α}
variable {ms : List (String × Json)} {fs : List FieldEdits} {slots : List Slot}

/-- A record is read along its edits, if it is put together from the values of its fields and
    needs all of them. -/
theorem decodes_record {src : Source} {lacking : Nat} (hfits : List.Forall₂ (Slot.Fits ms) fs slots)
    (hnames : (slots.map Slot.name).Nodup)
    (hbuild : ∀ t, (∀ s ∈ slots, s.field.get t = .ok s.value) → build t = .ok a)
    (hneeds : ∀ t b, build t = .ok b → ∀ s ∈ slots, ∃ value, s.field.get t = .ok value)
    (hedits : record fs (.object ms) src lacking) :
    Decodes (.record title (rulesOf slots) build) a src lacking := by
  obtain ⟨_, lead, members, known, unknown, hobject, hsrc, hparts, hunknown, hperm⟩ := hedits
  cases hobject
  have hhold := Slot.allHold_of_parts hfits hparts
  have hfields : fs.map (·.name) = slots.map Slot.name := by
    refine List.forall₂_eq_eq_eq ▸ List.forall₂_map_left_iff.2 (List.forall₂_map_right_iff.2 ?_)
    exact hfits.imp fun _ _ h => h.name_eq
  rw [hfields] at hunknown
  rw [Decodes, ← src.tree_trimmed, hsrc, Source.tree, Decoder.record]
  constructor
  · rintro rfl
    obtain ⟨t, hscan, hvalues⟩ := exists_table hhold hnames hperm hunknown
    rw [hscan]
    exact hbuild t hvalues
  · intro hlacking
    obtain ⟨s, hs, hrefused | ⟨hdefault, hmissing⟩⟩ := hhold.exists_bad hlacking hnames
    · obtain ⟨⟨key, value⟩, hm, hspells, fault, hfault⟩ := hrefused
      have hmem : (Stroke.string key.strokes, value.tree) ∈ Source.memberTrees members := by
        rw [Source.memberTrees_eq]
        exact List.mem_map.2 ⟨_, hperm.symm.subset (List.mem_append_left _ hm), rfl⟩
      have hcheck : s.field.rule.check value.tree = .error fault := by
        show (s.field.decode value.tree).map _ = _
        rw [hfault]
        rfl
      obtain ⟨fault, hscan⟩ := scanMembers_error hmem hspells (find?_rulesOf hnames s hs) hcheck
      rw [hscan]
      exact ⟨fault, rfl⟩
    · cases hscan : Json.scanMembers (rulesOf slots) .closed [] (Source.memberTrees members) with
      | error fault => exact ⟨fault, rfl⟩
      | ok t =>
        have hnone : t.lookup s.field.name = none := by
          refine lookup_of_scanMembers hscan fun m hm hspells => ?_
          rw [Source.memberTrees_eq] at hm
          obtain ⟨x, hx, rfl⟩ := List.mem_map.1 hm
          rcases List.mem_append.1 (hperm.subset hx) with hx | hx
          · exact hmissing x hx hspells
          · exact Stray.not_spells (hunknown x hx) hs hspells
        have hget : s.field.get t = .error (.here (.missingField s.field.name)) := by
          rw [RecordField.get, hnone, hdefault]
        cases hresult : build t with
        | error fault => exact ⟨fault, hresult⟩
        | ok b =>
          obtain ⟨value, hvalue⟩ := hneeds t b hresult s hs
          rw [hget] at hvalue
          cases hvalue

end

/-! ### Records of up to three fields -/

section

variable {α β γ δ : Type} {a : α} {b : β} {c : γ} {ms : List (String × Json)}

/-- A member that a value has does for its field, if it is left out only for the default. -/
theorem Slot.fits_member (f : RecordField α) {e : Edits} {absence : Absence} {j : Json}
    (hlookup : ms.lookup f.name = some j)
    (hedits : ∀ src lacking, e j src lacking → Decodes f.decode a src lacking)
    (hnever : absence = .never → f.default? = none)
    (hempty : absence = .emptyAs j → f.default? = some a) :
    Slot.Fits ms ⟨f.name, e, absence⟩ ⟨f, a⟩ := by
  refine ⟨rfl, fun part lacking hpart => ?_⟩
  dsimp only at hpart
  rw [hlookup] at hpart
  cases hpart with
  | given hkey hsrc => exact .given hkey (hedits _ _ hsrc)
  | leftOut habsence => exact .leftOut (hempty habsence)
  | lacking habsence => exact .lacking (hnever habsence)

/-- A member that a value does not have may be given as null. -/
theorem Slot.fits_none (f : RecordField α) {e : Edits} {absence : Absence}
    (hlookup : ms.lookup f.name = none) (hdefault : f.default? = some a)
    (hnull : f.decode .null = .ok a) : Slot.Fits ms ⟨f.name, e, absence⟩ ⟨f, a⟩ := by
  refine ⟨rfl, fun part lacking hpart => ?_⟩
  dsimp only at hpart
  rw [hlookup] at hpart
  cases hpart with
  | absent => exact .leftOut hdefault
  | @null _ src hkey hsrc _ =>
    have htree : src.tree = .null := by rw [← src.tree_trimmed, hsrc, Source.tree]
    refine .given hkey ⟨fun _ => ?_, fun h => absurd h (Nat.lt_irrefl 0)⟩
    rw [htree]
    exact hnull

theorem exists_of_bind_eq_ok {x : Except Json.Fault α} {k : α → Except Json.Fault β}
    (hbind : x >>= k = .ok b) : ∃ a, x = .ok a ∧ k a = .ok b := by
  cases x with
  | error fault => cases hbind
  | ok a => exact ⟨a, rfl, hbind⟩

variable {f : RecordField α} {g : RecordField β} {h : RecordField γ} {title : String}
variable {p q r : FieldEdits} {src : Source} {lacking : Nat}

theorem decodes_one_field {make : α → δ} (hf : Slot.Fits ms p ⟨f, a⟩)
    (hedits : record [p] (.object ms) src lacking) :
    Decodes (.record title [f.rule] fun t => do pure (make (← f.get t))) (make a) src lacking := by
  have hfits : List.Forall₂ (Slot.Fits ms) [p] [⟨f, a⟩] := .cons hf .nil
  refine decodes_record hfits (List.nodup_singleton _) (fun t hvalues => ?_) ?_ hedits
  · have hx : f.get t = .ok a := hvalues ⟨f, a⟩ List.mem_cons_self
    rw [hx]
    rfl
  · intro t d hbuild
    obtain ⟨x, hx, -⟩ := exists_of_bind_eq_ok hbuild
    exact List.forall_mem_singleton.2 ⟨x, hx⟩

theorem decodes_two_fields {make : α → β → δ} (hnames : [f.name, g.name].Nodup)
    (hf : Slot.Fits ms p ⟨f, a⟩) (hg : Slot.Fits ms q ⟨g, b⟩)
    (hedits : record [p, q] (.object ms) src lacking) :
    Decodes (.record title [f.rule, g.rule] fun t => do pure (make (← f.get t) (← g.get t)))
      (make a b) src lacking := by
  have hfits : List.Forall₂ (Slot.Fits ms) [p, q] [⟨f, a⟩, ⟨g, b⟩] := .cons hf (.cons hg .nil)
  refine decodes_record hfits hnames (fun t hvalues => ?_) ?_ hedits
  · have hx : f.get t = .ok a := hvalues ⟨f, a⟩ List.mem_cons_self
    have hy : g.get t = .ok b := hvalues ⟨g, b⟩ (.tail _ List.mem_cons_self)
    rw [hx, hy]
    rfl
  · intro t d hbuild
    obtain ⟨x, hx, hbuild⟩ := exists_of_bind_eq_ok hbuild
    obtain ⟨y, hy, -⟩ := exists_of_bind_eq_ok hbuild
    exact List.forall_mem_cons.2 ⟨⟨x, hx⟩, List.forall_mem_singleton.2 ⟨y, hy⟩⟩

theorem decodes_three_fields {make : α → β → γ → δ} (hnames : [f.name, g.name, h.name].Nodup)
    (hf : Slot.Fits ms p ⟨f, a⟩) (hg : Slot.Fits ms q ⟨g, b⟩) (hh : Slot.Fits ms r ⟨h, c⟩)
    (hedits : record [p, q, r] (.object ms) src lacking) :
    Decodes (.record title [f.rule, g.rule, h.rule] fun t => do
        pure (make (← f.get t) (← g.get t) (← h.get t)))
      (make a b c) src lacking := by
  have hfits : List.Forall₂ (Slot.Fits ms) [p, q, r] [⟨f, a⟩, ⟨g, b⟩, ⟨h, c⟩] :=
    .cons hf (.cons hg (.cons hh .nil))
  refine decodes_record hfits hnames (fun t hvalues => ?_) ?_ hedits
  · have hx : f.get t = .ok a := hvalues ⟨f, a⟩ List.mem_cons_self
    have hy : g.get t = .ok b := hvalues ⟨g, b⟩ (.tail _ List.mem_cons_self)
    have hz : h.get t = .ok c := hvalues ⟨h, c⟩ (.tail _ (.tail _ List.mem_cons_self))
    rw [hx, hy, hz]
    rfl
  · intro t d hbuild
    obtain ⟨x, hx, hbuild⟩ := exists_of_bind_eq_ok hbuild
    obtain ⟨y, hy, hbuild⟩ := exists_of_bind_eq_ok hbuild
    obtain ⟨z, hz, -⟩ := exists_of_bind_eq_ok hbuild
    exact List.forall_mem_cons.2 ⟨⟨x, hx⟩, List.forall_mem_cons.2
      ⟨⟨y, hy⟩, List.forall_mem_singleton.2 ⟨z, hz⟩⟩⟩

end

end Message

end ServiceRegistry
