import Mathlib.Logic.Function.Basic
import Mathlib.Tactic.SplitIfs

/-!
# A table of slots under 63-bit keys, and one-shot channels

`Slab` is a sharded slab with one reserved bit: an insertion takes any free key below `2 ^ 63`, and
a lookup by a 64-bit word ignores its top bit, so a key with the top bit set and the bare key
address one slot (`index_or_top`). `Oneshot` is a channel for one value whose receiving half may
be dropped before the value comes.
-/

structure Slab (α : Type*) where
  slot : Fin 9223372036854775808 → Option α

namespace Slab

variable {α : Type*}

abbrev Key := Fin 9223372036854775808

def empty : Slab α := ⟨fun _ => none⟩

/-- The slot a 64-bit word addresses. -/
def index (k : UInt64) : Key := ⟨k.toNat % 9223372036854775808, Nat.mod_lt _ (by decide)⟩

/-- An entry stored under a key that no live entry has. -/
def insert (s : Slab α) (k : Key) (a : α) : Option (Slab α) :=
  if s.slot k = none then some ⟨Function.update s.slot k (some a)⟩ else none

def take (s : Slab α) (k : UInt64) : Option α × Slab α :=
  (s.slot (index k), ⟨Function.update s.slot (index k) none⟩)

@[simp] theorem slot_empty (k : Key) : (empty : Slab α).slot k = none := rfl

theorem insert_eq_some {s s' : Slab α} {k : Key} {a : α} :
    s.insert k a = some s' ↔ s.slot k = none ∧ s' = ⟨Function.update s.slot k (some a)⟩ := by
  unfold insert
  split_ifs with h <;> simp [h, eq_comm]

theorem slot_take (s : Slab α) (k : UInt64) (j : Key) :
    (s.take k).2.slot j = if j = index k then none else s.slot j := by
  simp [take, Function.update_apply]

theorem take_of_slot_none {s : Slab α} {k : UInt64} (h : s.slot (index k) = none) :
    s.take k = (none, s) := by
  unfold take
  rw [h, ← h, Function.update_eq_self]

theorem index_or_top (k : Key) :
    index (UInt64.ofNat k.val ||| (1 : UInt64) <<< (63 : UInt64)) = k := by
  have hk := k.isLt
  have h1 : (UInt64.ofNat k.val).toNat = k.val := by
    simp only [UInt64.toNat_ofNat']
    omega
  have h2 : ((1 : UInt64) <<< (63 : UInt64)).toNat = 2 ^ 63 := by decide
  have h3 : (k.val ||| 2 ^ 63) % 2 ^ 63 = k.val := by
    rw [Nat.or_mod_two_pow, Nat.mod_self, Nat.or_zero]
    exact Nat.mod_eq_of_lt hk
  apply Fin.ext
  simp only [index, UInt64.toNat_or, h1, h2]
  exact h3

end Slab

inductive Oneshot (α : Type*) where
  | waiting
  | dropped
  | sent (a : α)
  deriving DecidableEq, Repr

namespace Oneshot

variable {α : Type*}

/-- `none` where the receiving half is gone. -/
def send : Oneshot α → α → Option (Oneshot α)
  | waiting, a => some (sent a)
  | dropped, _ => none
  | sent _, _ => none

/-- The receiving half goes away; a value already sent is lost with it. -/
def drop : Oneshot α → Oneshot α
  | waiting => dropped
  | dropped => dropped
  | sent a => sent a

theorem drop_eq_sent {c : Oneshot α} {a : α} : c.drop = sent a ↔ c = sent a := by
  cases c <;> simp [drop]

theorem send_eq_some {c c' : Oneshot α} {a : α} :
    c.send a = some c' ↔ c = waiting ∧ c' = sent a := by
  cases c <;> simp [send, eq_comm]

end Oneshot
