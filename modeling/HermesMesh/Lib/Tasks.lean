import Mathlib.Data.Option.Basic

/-!
# Tasks that wait for each other

Cooperative tasks, of which one waits for another. A task that is cancelled while it waits hands the
cancellation on to what it waits for, and learns of it only by how that ends (`Await.cancel_pending`);
where the other one is done already, the cancellation is kept, and takes the place of the outcome when
the waiting task goes on (`Await.cancel_done`, `Await.resumes_asked`).
-/

namespace Lib

/-- How a task ends. -/
inductive Outcome where
  | returned
  | raised
  | cancelled
  deriving DecidableEq, Repr

/-- What a task can wait for: how it ended, if it has, and what a cancellation makes of it. -/
class Awaitable (α : Type*) where
  outcome : α → Option Outcome
  cancel : α → α

open Awaitable

/-- A task that waits. -/
structure Await (α : Type*) where
  on : α
  /-- The cancellation that came too late to be handed on. -/
  mustCancel : Bool := false
  deriving DecidableEq, Repr

namespace Await

variable {α : Type*} [Awaitable α] {w : Await α} {o : Outcome}

/-- The waiting task is cancelled. -/
def cancel (w : Await α) : Await α :=
  if (outcome w.on).isSome then { w with mustCancel := true }
  else { w with on := Awaitable.cancel w.on }

/-- What the waiting task meets as it goes on, once it can. -/
def resumes (w : Await α) : Option Outcome :=
  (outcome w.on).map fun o => if w.mustCancel then .cancelled else o

theorem cancel_pending (h : outcome w.on = none) :
    w.cancel = { w with on := Awaitable.cancel w.on } := by
  unfold cancel
  rw [h, Option.isSome_none, if_neg Bool.false_ne_true]

theorem cancel_done (h : outcome w.on = some o) : w.cancel = { w with mustCancel := true } := by
  unfold cancel
  rw [h, Option.isSome_some, if_pos rfl]

theorem resumes_eq_none : w.resumes = none ↔ outcome w.on = none := Option.map_eq_none_iff

/-- A task that was not cancelled meets the outcome itself. -/
theorem resumes_unasked (h : w.mustCancel = false) : w.resumes = outcome w.on := by
  unfold resumes
  rw [h]
  simp

/-- A task that was cancelled too late to hand it on meets the cancellation. -/
theorem resumes_asked (h : w.mustCancel = true) (ho : outcome w.on = some o) :
    w.resumes = some .cancelled := by
  unfold resumes
  rw [h, ho, Option.map_some, if_pos rfl]

end Await

end Lib
