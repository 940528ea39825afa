/-
  ServiceRegistry.Proofs.Client.Wire

  The other end of a network as its callers meet it: one answer comes for each call, and the
  calls are written down. Whatever servers there are, stateful or failing, what they have
  answered in the end is such a sequence of answers, so what holds of all of these holds of
  every server.
-/
import ServiceRegistry.Client.Exchange

namespace ServiceRegistry.Client

open Net

/-- The answers to come, one for each number of calls made before, and the calls made. -/
structure Wire where
  answers : Nat → Option Response
  made : List Call := []

namespace Wire

/-- The wire after more calls. -/
def calling (w : Wire) (calls : List Call) : Wire := { w with made := w.made ++ calls }

/-- The answer to the call that comes next. -/
def answer (w : Wire) : Option Response := w.answers w.made.length

/-- The network in which the wire answers. -/
def network : Network Wire := fun c => .atomically fun w => (w.answer, w.calling [c])

@[simp] theorem run_network (c : Call) (w : Wire) :
    (network c).run w = (w.answer, w.calling [c]) := rfl

@[simp] theorem calling_made (w : Wire) (calls : List Call) :
    (w.calling calls).made = w.made ++ calls := rfl

@[simp] theorem calling_answers (w : Wire) (calls : List Call) :
    (w.calling calls).answers = w.answers := rfl

@[simp] theorem calling_nil (w : Wire) : w.calling [] = w := by
  rw [calling, List.append_nil]

@[simp] theorem calling_calling (w : Wire) (calls more : List Call) :
    (w.calling calls).calling more = w.calling (calls ++ more) := by
  simp only [calling, List.append_assoc]

end Wire

end ServiceRegistry.Client
