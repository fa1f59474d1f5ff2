import Mathlib.Data.List.Basic
import Mathlib.Tactic.SplitIfs

/-!
# Notifications with one stored permit

A `Notify` wakes tasks that wait for it. `notifyOne` wakes the first that waits, or stores a permit
that the next `notified` takes; `notifyWaiters` wakes all that wait and stores nothing.
-/

/-- The stored permit, and those who wait, first come first. -/
structure Notify (α : Type*) where
  permit : Bool
  waiters : List α

namespace Notify

variable {α : Type*}

def new : Notify α := ⟨false, []⟩

/-- The first poll of a wait, and whether it is over with that. -/
def notified (n : Notify α) (w : α) : Notify α × Bool :=
  if n.permit then ({ n with permit := false }, true)
  else ({ n with waiters := n.waiters ++ [w] }, false)

/-- With whom is woken. -/
def notifyOne (n : Notify α) : Notify α × List α :=
  match n.waiters with
  | [] => ({ n with permit := true }, [])
  | w :: ws => ({ n with waiters := ws }, [w])

def notifyWaiters (n : Notify α) : Notify α × List α := ({ n with waiters := [] }, n.waiters)

/-- A waiter that goes away. -/
def cancel [DecidableEq α] (n : Notify α) (w : α) : Notify α :=
  { n with waiters := n.waiters.erase w }

@[simp] theorem notified_ready (n : Notify α) (w : α) : (n.notified w).2 = n.permit := by
  unfold notified
  split_ifs with h
  · exact h.symm
  · simpa using h

theorem permit_notified (n : Notify α) (w : α) : (n.notified w).1.permit = false := by
  unfold notified
  split_ifs with h
  · rfl
  · simpa using h

@[simp] theorem permit_notifyWaiters (n : Notify α) : n.notifyWaiters.1.permit = n.permit := rfl

@[simp] theorem permit_cancel [DecidableEq α] (n : Notify α) (w : α) :
    (n.cancel w).permit = n.permit := rfl

end Notify
