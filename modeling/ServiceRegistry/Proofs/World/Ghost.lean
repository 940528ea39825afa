/-
  ServiceRegistry.Proofs.World.Ghost

  Activities that keep to a rule. A ghost state stands beside the shared state and records
  what an activity has done so far, as far as it matters; a rule says how a step may change
  the shared state and what it then does to the ghost. `Follows rule post g x` says that
  each step of `x`, taken in any state whatever, obeys the rule, and that the ghost at the
  end fits the value.

  Since every step is judged in all states, the property is one of the activity alone. It
  can be put together along the text of the activity (`follows_bind`), and it can be used
  wherever the activity's steps are taken, alone or between the steps of others.
-/
import Mathlib.Logic.Function.Basic
import ServiceRegistry.Proofs.World.Steps

namespace ServiceRegistry.World

/-! ## Rules -/

/-- From the ghost `g` on, each step of the activity obeys the rule, and the ghost at the
    end fits the value. -/
def Follows {σ γ α : Type} (rule : γ → σ → σ → γ → Prop) (post : α → γ → Prop) :
    γ → Activity σ α → Prop
  | g, .done a => post a g
  | g, .step act next => ∀ s, ∃ g', rule g s (act s) g' ∧ Follows rule post g' (next s)

section

variable {σ γ α β : Type} {rule : γ → σ → σ → γ → Prop} {post : α → γ → Prop} {g : γ}

theorem follows_pure {a : α} (h : post a g) : Follows rule post g (pure a) := h

theorem Follows.mono {post' : α → γ → Prop} {x : Activity σ α} (h : Follows rule post g x)
    (hpost : ∀ a g', post a g' → post' a g') : Follows rule post' g x := by
  induction x generalizing g with
  | done a => exact hpost a g h
  | step act next ih =>
    intro s
    obtain ⟨g', hrule, hnext⟩ := h s
    exact ⟨g', hrule, ih s hnext⟩

theorem follows_bind {mid : β → γ → Prop} {x : Activity σ β} {f : β → Activity σ α}
    (hx : Follows rule mid g x) (hf : ∀ b g', mid b g' → Follows rule post g' (f b)) :
    Follows rule post g (x >>= f) := by
  -- Along the steps of `x`; the ghost is the one that the step taken has left.
  induction x generalizing g with
  | done b => exact hf b g hx
  | step act next ih =>
    intro s
    obtain ⟨g', hrule, hnext⟩ := hx s
    exact ⟨g', hrule, ih s hnext⟩

theorem follows_observe {f : σ → α} (h : ∀ s, ∃ g', rule g s s g' ∧ post (f s) g') :
    Follows rule post g (.observe f) := h

theorem follows_atomically {f : σ → α × σ}
    (h : ∀ s, ∃ g', rule g s (f s).2 g' ∧ post (f s).1 g') :
    Follows rule post g (.atomically f) := h

/-- What every step keeps holds when the activity has been run without interruption. -/
theorem Follows.run {P : γ → σ → Prop} (hrule : ∀ g s s' g', rule g s s' g' → P g s → P g' s')
    {x : Activity σ α} (h : Follows rule post g x) {s : σ} (hP : P g s) :
    ∃ g', post (x.run s).1 g' ∧ P g' (x.run s).2 := by
  induction x generalizing g s with
  | done a => exact ⟨g, h, hP⟩
  | step act next ih =>
    obtain ⟨g', hstep, hnext⟩ := h s
    exact ih s hnext (hrule g s (act s) g' hstep hP)

end

/-! ## A ghost for each of many -/

/-- What holds of each element of a list and its ghost still holds when one element goes on
    as another, with a new ghost. -/
theorem forall_set_update {β γ : Type} {xs : List β} {ghosts : Nat → γ} {p : Nat → β → γ → Prop}
    {k : Nat} {x : β} {g : γ} (h : ∀ j y, xs[j]? = some y → p j y (ghosts j)) (hx : p k x g)
    (j : Nat) (y : β) (hy : (xs.set k x)[j]? = some y) : p j y (Function.update ghosts k g j) := by
  by_cases hj : j = k
  · subst hj
    rw [List.getElem?_set_self', Option.map_eq_map, Option.map_eq_some_iff] at hy
    obtain ⟨-, -, rfl⟩ := hy
    rw [Function.update_self]
    exact hx
  · rw [List.getElem?_set_ne (Ne.symm hj)] at hy
    rw [Function.update_of_ne hj]
    exact h j y hy

/-! ## Steps that leave the ghost alone -/

/-- Where a rule lets the inventory be as it is, so do activities that never change it. -/
theorem follows_of_steps {γ α : Type} {rule : γ → World → World → γ → Prop} {g : γ}
    (hrule : ∀ w w', w'.inventory = w.inventory → rule g w w' g) {policy : Policy} {x : Work α}
    (h : Steps policy (fun _ => False) x) : Follows rule (fun _ g' => g' = g) g x := by
  induction x with
  | done a => rfl
  | step act next ih =>
    intro w
    obtain ⟨hchanges, hnext⟩ := h w
    rcases hchanges with hsame | ⟨e, he, -⟩
    · exact ⟨g, hrule w (act w) hsame, ih w hnext⟩
    · exact he.elim

end ServiceRegistry.World
