import MessageBus.Lib.Pool

/-!
# The permits of a semaphore

A semaphore gives one permit to each busy entry of a pool, and any number to a single other holder.
As long as permits only move (`Shares`), no more entries are busy than there are permits
(`Shares.busy_le`), and whoever sees all of them free sees no entry busy (`Shares.idle`).
-/

namespace Semaphore

variable {α : Type*} {busy : α → Bool} {total free held : ℕ} {pool : List α}

/-- Of `total` permits, `free` are free, one is with each busy entry of the pool, and `held` are
with someone else. -/
def Shares (busy : α → Bool) (total free : ℕ) (pool : List α) (held : ℕ) : Prop :=
  free + pool.countP busy + held = total

namespace Shares

theorem start (total : ℕ) : Shares busy total total [] 0 := rfl

theorem spawn (h : Shares busy total free pool held) (hfree : 1 ≤ free) {a : α}
    (ha : busy a = true) : Shares busy total (free - 1) (pool ++ [a]) held := by
  unfold Shares at h ⊢
  simp only [List.countP_append, List.countP_singleton, ha, if_true]
  omega

theorem set (h : Shares busy total free pool held) {i : ℕ} {a b : α} (hi : pool[i]? = some a)
    (hab : busy b = busy a) : Shares busy total free (pool.set i b) held := by
  have := Pool.countP_set_add (q := busy) (b := b) hi
  unfold Shares at h ⊢
  rw [hab] at this
  omega

theorem release (h : Shares busy total free pool held) {i : ℕ} {a b : α} (hi : pool[i]? = some a)
    (ha : busy a = true) (hb : busy b = false) :
    Shares busy total (free + 1) (pool.set i b) held := by
  have := Pool.countP_set_add (q := busy) (b := b) hi
  unfold Shares at h ⊢
  simp only [ha, hb, if_true, Bool.false_eq_true, if_false] at this
  omega

theorem take (h : Shares busy total free pool 0) {n : ℕ} (hn : n ≤ free) :
    Shares busy total (free - n) pool n := by
  unfold Shares at h ⊢
  omega

theorem give (h : Shares busy total free pool held) : Shares busy total (free + held) pool 0 := by
  unfold Shares at h ⊢
  omega

theorem busy_le (h : Shares busy total free pool held) : pool.countP busy ≤ total := by
  unfold Shares at h
  omega

/-- All the permits free, or with the other holder. -/
theorem idle (h : Shares busy total free pool held) (hall : total ≤ free + held) :
    ∀ a ∈ pool, busy a = false := by
  intro a ha
  have hz : pool.countP busy = 0 := by
    unfold Shares at h
    omega
  simpa using List.countP_eq_zero.1 hz a ha

end Shares

end Semaphore
