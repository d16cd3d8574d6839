import Mathlib.Data.List.Basic

namespace MusicRemote.Foundation

variable {μ : Type*}

/-- An unbounded channel: sending fails exactly when the receiving end has been
closed or dropped, and what was sent comes out in the order of the sends. -/
structure Channel (μ : Type*) where
  queue : List μ
  isOpen : Bool

namespace Channel

def new : Channel μ := ⟨[], true⟩

def send (c : Channel μ) (m : μ) : Option (Channel μ) :=
  if c.isOpen then some { c with queue := c.queue ++ [m] } else none

def recv (c : Channel μ) : Option (μ × Channel μ) :=
  match c.queue with
  | [] => none
  | m :: queue => some (m, { c with queue := queue })

def close (_ : Channel μ) : Channel μ := ⟨[], false⟩

variable {c c' : Channel μ} {m : μ}

theorem send_eq_some : c.send m = some c' ↔ c.isOpen = true ∧ c' = ⟨c.queue ++ [m], true⟩ := by
  cases c with
  | mk queue isOpen => cases isOpen <;> simp [send, eq_comm]

theorem send_eq_none : c.send m = none ↔ c.isOpen = false := by
  simp [send]

theorem recv_eq_some : c.recv = some (m, c') ↔ c.queue = m :: c'.queue ∧ c'.isOpen = c.isOpen := by
  rcases c with ⟨_ | ⟨a, queue⟩, isOpen⟩ <;> rcases c' with ⟨queue', isOpen'⟩ <;>
    simp only [recv, Option.some.injEq, Prod.mk.injEq, mk.injEq, List.cons.injEq, reduceCtorEq,
      false_and]
  grind

end Channel

end MusicRemote.Foundation
