/-
  ServiceRegistry.Proofs.World.Crew

  What holds of activities at work together, whatever order their steps are taken in. Each
  step performs at most one event on the inventory, one that fits the activity, so what all
  such events keep holds at every moment of every schedule (`Crew.Ready.after_induction`).

  What one of the activities has done can be read off its value once it is done: a ghost
  that notes a step as it is taken leads from the value back to the step and to the moment
  of the schedule at which it was taken (`exists_takes_of_done`).
-/
import ServiceRegistry.Proofs.Inventory.WellFormed
import ServiceRegistry.Proofs.World.Serial

namespace ServiceRegistry.World

open Inventory (Event Moment)

variable {α : Type}

namespace Crew

/-! ## Ticks -/

theorem perform_proceed {s : Crew α} {k : Nat} {act : World → World} {next : World → Work α}
    (hk : s.tasks[k]? = some (.step act next)) :
    s.perform (.proceed k) = ⟨act s.world, s.tasks.set k (next s.world)⟩ := by
  simp only [perform, hk]

theorem perform_proceed_cases (s : Crew α) (k : Nat) :
    (∃ act next, s.tasks[k]? = some (.step act next) ∧
      s.perform (.proceed k) = ⟨act s.world, s.tasks.set k (next s.world)⟩) ∨
    s.perform (.proceed k) = s := by
  cases hk : s.tasks[k]? with
  | none => exact .inr (by simp only [perform, hk])
  | some x =>
    cases x with
    | done a => exact .inr (by simp only [perform, hk])
    | step act next => exact .inl ⟨act, next, rfl, perform_proceed hk⟩

/-- A tick is a step of an activity, or it leaves the inventory and the activities alone. -/
theorem perform_cases (s : Crew α) (t : Tick) :
    (∃ k act next, t = .proceed k ∧ s.tasks[k]? = some (.step act next) ∧
      s.perform t = ⟨act s.world, s.tasks.set k (next s.world)⟩) ∨
    (s.perform t).world.inventory = s.world.inventory ∧ (s.perform t).tasks = s.tasks := by
  cases t with
  | drift d => exact .inr ⟨rfl, rfl⟩
  | proceed k =>
    rcases s.perform_proceed_cases k with ⟨act, next, hk, hafter⟩ | hsame
    · exact .inl ⟨k, act, next, rfl, hk, hafter⟩
    · exact .inr ⟨by rw [hsame], by rw [hsame]⟩

theorem after_append (s : Crew α) (ticks more : List Tick) :
    s.after (ticks ++ more) = (s.after ticks).after more := by
  induction ticks generalizing s with
  | nil => rfl
  | cons t ticks ih => exact ih (s.perform t)

/-- The number of ticks that create an instance. -/
def creations (s : Crew α) : List Tick → Nat
  | [] => 0
  | t :: ticks =>
    (if s.world.inventory.size < (s.perform t).world.inventory.size then 1 else 0)
      + (s.perform t).creations ticks

theorem creations_append (s : Crew α) (ticks more : List Tick) :
    s.creations (ticks ++ more) = s.creations ticks + (s.after ticks).creations more := by
  induction ticks generalizing s with
  | nil => exact (Nat.zero_add _).symm
  | cons t ticks ih =>
    rw [List.cons_append, creations, creations, ih, Nat.add_assoc]
    rfl

/-- The turns of the activity at `k`, each with the world it meets and the world it leaves. Once
    the activity is done they leave the world as it is. -/
def stepsOf (s : Crew α) (k : Nat) : List Tick → List (World × World)
  | [] => []
  | .drift d :: ticks => (s.perform (.drift d)).stepsOf k ticks
  | .proceed j :: ticks =>
    let rest := (s.perform (.proceed j)).stepsOf k ticks
    if j = k then (s.world, (s.perform (.proceed j)).world) :: rest else rest

theorem stepsOf_cons (s : Crew α) (k : Nat) (t : Tick) (ticks : List Tick) :
    s.stepsOf k (t :: ticks) = s.stepsOf k [t] ++ (s.perform t).stepsOf k ticks := by
  cases t with
  | drift d => rfl
  | proceed j =>
    by_cases hjk : j = k
    · simp only [stepsOf, if_pos hjk, List.singleton_append]
    · simp only [stepsOf, if_neg hjk, List.nil_append]

/-! ## Events -/

/-- The inventory is well-formed, the activities perform only events that fit their positions,
    and the ticks do not use up the numbers for instances. -/
structure Ready (policy : Policy) (fits : Nat → Event → Prop) (s : Crew α) (ticks : List Tick) :
    Prop where
  wellFormed : s.world.inventory.WellFormed
  obedient : ∀ k x, s.tasks[k]? = some x → Steps policy (fits k) x
  room : s.world.inventory.lastId.toNat + s.creations ticks < UInt64.size

theorem ready_of_empty {policy : Policy} {fits : Nat → Event → Prop} {s : Crew α}
    {ticks : List Tick} (hempty : s.world.inventory = .empty)
    (hobedient : ∀ k x, s.tasks[k]? = some x → Steps policy (fits k) x)
    (hroom : s.creations ticks < UInt64.size) : s.Ready policy fits ticks where
  wellFormed := by
    rw [hempty]
    exact Inventory.wellFormed_empty
  obedient := hobedient
  room := by
    have hzero : s.world.inventory.lastId.toNat = 0 := by rw [hempty]; rfl
    omega

/-- What a tick does to an inventory: nothing, or what an event does that fits the position of
    the activity whose turn it is. -/
inductive Affects (policy : Policy) (fits : Nat → Event → Prop) (t : Tick)
    (inv inv' : Inventory) : Prop
  | nothing (h : inv' = inv)
  | event (k : Nat) (e : Event) (hk : t = .proceed k) (hfits : fits k e)
    (hsound : (Moment.mk e inv).Sound policy) (h : inv' = (Moment.mk e inv).after policy)

section

variable {policy : Policy} {fits : Nat → Event → Prop} {s : Crew α} {t : Tick}
variable {ticks more : List Tick}

/-- An event that a tick performs finds a number left if it needs one. -/
theorem Ready.sound (h : Ready policy fits s (t :: ticks)) {e : Event}
    (he : (s.perform t).world.inventory = (Moment.mk e s.world.inventory).after policy) :
    (Moment.mk e s.world.inventory).Sound policy where
  wellFormed := h.wellFormed
  room := by
    intro hc
    have hroom := h.room
    -- An event that creates an instance is one of those counted.
    have hsize := Moment.size_after_of_creates hc
    rw [creations, he, hsize, if_pos (Nat.lt_succ_self _)] at hroom
    show s.world.inventory.lastId.toNat + 1 < UInt64.size
    omega

theorem Ready.affects (h : Ready policy fits s (t :: ticks)) :
    Affects policy fits t s.world.inventory (s.perform t).world.inventory := by
  rcases s.perform_cases t with ⟨k, act, next, rfl, hk, hafter⟩ | ⟨hsame, -⟩
  · rcases (h.obedient k _ hk s.world).1 with hsame | ⟨e, hfits, heq⟩
    · exact .nothing (by rw [hafter, hsame])
    · have hinventory : (s.perform (.proceed k)).world.inventory
          = (Moment.mk e s.world.inventory).after policy := by rw [hafter, heq]
      exact .event k e rfl hfits (h.sound hinventory) hinventory
  · exact .nothing hsame

theorem Affects.wellFormed {inv inv' : Inventory} (h : Affects policy fits t inv inv')
    (hinv : inv.WellFormed) : inv'.WellFormed := by
  cases h with
  | nothing h =>
    rw [h]
    exact hinv
  | event k e _ _ hsound h =>
    rw [h]
    exact hsound.wellFormed_after

/-- Whatever happens, the numbers given out are those of the instances created. -/
theorem Affects.toNat_lastId {inv inv' : Inventory} (h : Affects policy fits t inv inv') :
    inv'.lastId.toNat = inv.lastId.toNat + if inv.size < inv'.size then 1 else 0 := by
  cases h with
  | nothing h =>
    rw [h, if_neg (Nat.lt_irrefl _)]
    rfl
  | event k e _ _ hsound h =>
    rw [h]
    cases hc : (Moment.mk e inv).creates policy with
    | true =>
      have hsize : ((Moment.mk e inv).after policy).size = inv.size + 1 :=
        Moment.size_after_of_creates hc
      rw [hsize, if_pos (Nat.lt_succ_self _)]
      exact hsound.toNat_lastId_of_creates hc
    | false =>
      have hsize : ((Moment.mk e inv).after policy).size ≤ inv.size :=
        Moment.size_after_le hsound.wellFormed.ids_nodup hc
      rw [if_neg (Nat.not_lt.2 hsize), Inventory.lastId_after_of_not_creates hsound.wellFormed hc]
      rfl

theorem obedient_perform (h : ∀ k x, s.tasks[k]? = some x → Steps policy (fits k) x) (t : Tick) :
    ∀ k x, (s.perform t).tasks[k]? = some x → Steps policy (fits k) x := by
  rcases s.perform_cases t with ⟨k, act, next, -, hk, hafter⟩ | ⟨-, hsame⟩
  · intro j x hx
    rw [hafter] at hx
    -- What is left of the activity obeys because the whole of it did.
    have hnext : Steps policy (fits k) (next s.world) := (h k _ hk s.world).2
    by_cases hjk : j = k
    · subst hjk
      rw [List.getElem?_set_self (List.getElem?_eq_some_iff.1 hk).1] at hx
      rw [← Option.some.inj hx]
      exact hnext
    · rw [List.getElem?_set_ne (Ne.symm hjk)] at hx
      exact h j x hx
  · rw [hsame]
    exact h

theorem Ready.tail (h : Ready policy fits s (t :: ticks)) :
    Ready policy fits (s.perform t) ticks where
  wellFormed := h.affects.wellFormed h.wellFormed
  obedient := obedient_perform h.obedient t
  room := by
    have hroom := h.room
    rw [creations] at hroom
    rw [h.affects.toNat_lastId]
    omega

theorem Ready.append_left (h : Ready policy fits s (ticks ++ more)) :
    Ready policy fits s ticks where
  wellFormed := h.wellFormed
  obedient := h.obedient
  room := by
    have hroom := h.room
    rw [creations_append] at hroom
    omega

theorem Ready.append_right (h : Ready policy fits s (ticks ++ more)) :
    Ready policy fits (s.after ticks) more := by
  induction ticks generalizing s with
  | nil => exact h
  | cons t ticks ih => exact ih h.tail

theorem Ready.wellFormed_after (h : Ready policy fits s ticks) :
    (s.after ticks).world.inventory.WellFormed := by
  rw [← List.append_nil ticks] at h
  exact h.append_right.wellFormed

/-- What every event of the activities keeps holds after all ticks. -/
theorem Ready.after_induction {P : Inventory → Prop} (h : Ready policy fits s ticks)
    (hinv : P s.world.inventory)
    (hstep : ∀ k (m : Moment), fits k m.toEvent → m.Sound policy → P m.met → P (m.after policy)) :
    P (s.after ticks).world.inventory := by
  induction ticks generalizing s with
  | nil => exact hinv
  | cons t ticks ih =>
    refine ih h.tail ?_
    cases h.affects with
    | nothing heq =>
      rw [heq]
      exact hinv
    | event k e _ hfits hsound heq =>
      rw [heq]
      exact hstep k _ hfits hsound hinv

end

/-! ## Steps read off values -/

/-- At some moment of the schedule the activity at `k` takes a step that does something. -/
def Takes (s : Crew α) (k : Nat) (ticks : List Tick) (does : World → World → Prop) : Prop :=
  ∃ earlier later, ticks = earlier ++ .proceed k :: later ∧
    does (s.after earlier).world ((s.after earlier).perform (.proceed k)).world

theorem Takes.cons {s : Crew α} {k : Nat} {t : Tick} {ticks : List Tick}
    {does : World → World → Prop} (h : (s.perform t).Takes k ticks does) :
    s.Takes k (t :: ticks) does := by
  obtain ⟨earlier, later, rfl, hdoes⟩ := h
  exact ⟨t :: earlier, later, rfl, hdoes⟩

theorem Takes.mono {s : Crew α} {k : Nat} {ticks : List Tick} {does does' : World → World → Prop}
    (h : s.Takes k ticks does) (hdoes : ∀ w w', does w w' → does' w w') :
    s.Takes k ticks does' := by
  obtain ⟨earlier, later, heq, hstep⟩ := h
  exact ⟨earlier, later, heq, hdoes _ _ hstep⟩

/-- What a step brings about and all later events keep is there after all ticks. -/
theorem Ready.takes_after {policy : Policy} {fits : Nat → Event → Prop} {s : Crew α}
    {ticks : List Tick} {k : Nat} {does : World → World → Prop} {P : Inventory → Inventory → Prop}
    (h : Ready policy fits s ticks) (htakes : s.Takes k ticks does)
    (hnow : ∀ w w', w.inventory.WellFormed → does w w' → P w.inventory w'.inventory)
    (hstep : ∀ inv j (m : Moment), fits j m.toEvent → m.Sound policy → P inv m.met →
      P inv (m.after policy)) :
    s.Takes k ticks fun w w' => does w w' ∧ P w.inventory (s.after ticks).world.inventory := by
  obtain ⟨earlier, later, rfl, hdoes⟩ := htakes
  have hrest : Ready policy fits (s.after earlier) (.proceed k :: later) := h.append_right
  refine ⟨earlier, later, rfl, hdoes, ?_⟩
  rw [after_append]
  exact hrest.tail.after_induction (hnow _ _ hrest.wellFormed hdoes) (hstep _)

/-- The value of the activity at a position, if it is done. -/
def value? (s : Crew α) (k : Nat) : Option α := s.tasks[k]?.bind (·.value?)

theorem value?_eq_some {s : Crew α} {k : Nat} {a : α} :
    s.value? k = some a ↔ s.tasks[k]? = some (.done a) := by
  simp only [value?, Option.bind_eq_some_iff, Activity.value?_eq_some, exists_eq_right]

end Crew

/-- A step leaves the note alone, or it does what the note then says. -/
def Notes {γ : Type} (does : γ → World → World → Prop) (g : Option γ) (w w' : World)
    (g' : Option γ) : Prop :=
  g' = g ∨ ∃ v, g' = some v ∧ does v w w'

/-- What the note says in the end was done by a step of the activity, if it was not noted from
    the start. -/
theorem exists_takes_of_done {γ : Type} {does : γ → World → World → Prop}
    {post : α → Option γ → Prop} {g : Option γ} {s : Crew α} {k : Nat} {x : Work α}
    (hk : s.tasks[k]? = some x) (hx : Follows (Notes does) post g x) {ticks : List Tick} {a : α}
    (hdone : (s.after ticks).value? k = some a) :
    ∃ g', post a g' ∧ (g' = g ∨ ∃ v, g' = some v ∧ s.Takes k ticks (does v)) := by
  rw [Crew.value?_eq_some] at hdone
  -- Along the schedule, for what is left of the activity and the note it has left.
  induction ticks generalizing s x g with
  | nil =>
    obtain rfl : x = .done a := Option.some.inj (hk.symm.trans hdone)
    exact ⟨g, hx, .inl rfl⟩
  | cons t ticks ih =>
    rcases s.perform_cases t with ⟨j, act, next, rfl, hj, hafter⟩ | ⟨-, hsame⟩
    · by_cases hjk : j = k
      · subst hjk
        obtain rfl : x = .step act next := Option.some.inj (hk.symm.trans hj)
        obtain ⟨g₁, hrule, hnext⟩ := hx s.world
        have hleft : (s.perform (.proceed j)).tasks[j]? = some (next s.world) := by
          rw [hafter]
          exact List.getElem?_set_self (List.getElem?_eq_some_iff.1 hj).1
        obtain ⟨g', hpost, hkept | ⟨v, hv, htakes⟩⟩ := ih hleft hnext hdone
        · rcases hrule with rfl | ⟨v, rfl, hdoes⟩
          · exact ⟨g', hpost, .inl hkept⟩
          · refine ⟨g', hpost, .inr ⟨v, hkept, [], ticks, rfl, ?_⟩⟩
            show does v s.world (s.perform (.proceed j)).world
            rw [hafter]
            exact hdoes
        · exact ⟨g', hpost, .inr ⟨v, hv, htakes.cons⟩⟩
      · -- The step of another activity.
        have hleft : (s.perform (.proceed j)).tasks[k]? = some x := by
          rw [hafter, ← hk]
          exact List.getElem?_set_ne hjk
        obtain ⟨g', hpost, hnote⟩ := ih hleft hx hdone
        exact ⟨g', hpost, hnote.imp_right fun ⟨v, hv, htakes⟩ => ⟨v, hv, htakes.cons⟩⟩
    · have hleft : (s.perform t).tasks[k]? = some x := by rw [hsame, hk]
      obtain ⟨g', hpost, hnote⟩ := ih hleft hx hdone
      exact ⟨g', hpost, hnote.imp_right fun ⟨v, hv, htakes⟩ => ⟨v, hv, htakes.cons⟩⟩

/-! ## Operations on the inventory as notes -/

section

variable {β : Type}

/-- A step in which an operation on the inventory is carried out and has a value. -/
def Performs (f : UInt64 → Inventory → β × Inventory) (b : β) (w w' : World) : Prop :=
  ∃ now, f now w.inventory = (b, w'.inventory)

theorem notes_onInventory (f : UInt64 → Inventory → β × Inventory) (g : Option β) :
    Follows (Notes (Performs f)) (fun b g' => g' = some b) g
      (do let now ← readClock; onInventory (f now)) :=
  fun w₀ => ⟨g, .inl rfl, fun _ => ⟨_, .inr ⟨_, rfl, w₀.clock, rfl⟩, rfl⟩⟩

/-- An operation that leaves the inventory as it is when it is refused. -/
def tries (f : UInt64 → Inventory → Except RegistryError (β × Inventory)) (now : UInt64)
    (inv : Inventory) : Except RegistryError β × Inventory :=
  match f now inv with
  | .ok (b, inv) => (.ok b, inv)
  | .error e => (.error e, inv)

theorem notes_tryInventory (f : UInt64 → Inventory → Except RegistryError (β × Inventory))
    (g : Option (Except RegistryError β)) :
    Follows (Notes (Performs (tries f))) (fun b g' => g' = some b) g
      (do let now ← readClock; tryInventory (f now)) :=
  notes_onInventory (tries f) g

theorem Performs.of_tries {f : UInt64 → Inventory → Except RegistryError (β × Inventory)} {b : β}
    {w w' : World} (h : Performs (tries f) (.ok b) w w') :
    ∃ now, f now w.inventory = .ok (b, w'.inventory) := by
  obtain ⟨now, hnow⟩ := h
  refine ⟨now, ?_⟩
  unfold tries at hnow
  cases hf : f now w.inventory with
  | error e =>
    rw [hf] at hnow
    cases hnow
  | ok x =>
    rw [hf] at hnow
    obtain ⟨hb, hinventory⟩ := Prod.mk.inj hnow
    rw [← Except.ok.inj hb, ← hinventory]

theorem notes_look (f : Inventory → β) (g : Option β) :
    Follows (Notes (Performs fun _ inv => (f inv, inv))) (fun b g' => g' = some b) g (look f) :=
  fun w => ⟨_, .inr ⟨_, rfl, w.clock, rfl⟩, rfl⟩

/-- Nobody has to note what is done. -/
theorem notes_any {does : β → World → World → Prop} {g : Option β} (x : Work α) :
    Follows (Notes does) (fun _ g' => g' = g) g x := by
  induction x with
  | done a => rfl
  | step act next ih => exact fun w => ⟨g, .inl rfl, ih w⟩

end

end ServiceRegistry.World
