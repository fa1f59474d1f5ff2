import Mathlib.Algebra.Ring.Nat
import Mathlib.Data.List.Flatten
import Mathlib.Data.List.Perm.Basic

/-!
# A pool whose entries change one at a time

A pool is a list whose entries are replaced in place. What holds of every entry still does where it
holds of the new one (`forall_mem_set`). What is gathered from the entries changes by what the
replaced entry gave: up to order for lists (`perm_flatMap_set`, `perm_filterMap_set`), by one for a
count (`countP_set_add`), and by the difference for a sum (`sum_map_set_add`).
-/

namespace Pool

variable {α β : Type*} {l : List α} {i : ℕ} {a : α}

theorem forall_mem_set {q : α → Prop} (h : ∀ a ∈ l, q a) (i : ℕ) {b : α} (hb : q b) :
    ∀ a ∈ l.set i b, q a := by
  intro a ha
  rcases List.mem_or_eq_of_mem_set ha with ha | rfl
  · exact h a ha
  · exact hb

theorem map_set_of_eq {f : α → β} (hi : l[i]? = some a) (a' : α) (h : f a' = f a) :
    (l.set i a').map f = l.map f := by
  obtain ⟨hlt, rfl⟩ := List.getElem?_eq_some_iff.1 hi
  have hlt' : i < (l.map f).length := by simpa using hlt
  have hget : (l.map f)[i] = f l[i] := List.getElem_map f
  rw [List.map_set, h, ← hget, List.set_getElem_self]

theorem filterMap_set_of_eq {f : α → Option β} (hi : l[i]? = some a) (a' : α) (h : f a' = f a) :
    (l.set i a').filterMap f = l.filterMap f := by
  have hmap := congrArg (List.filterMap id) (map_set_of_eq hi a' h)
  rwa [List.filterMap_map, List.filterMap_map] at hmap

theorem perm_flatMap_set (f : α → List β) {a : α} (a' : α) :
    ∀ {l : List α} {i : ℕ}, l[i]? = some a →
      ((l.set i a').flatMap f ++ f a).Perm (l.flatMap f ++ f a')
  | [], i, h => by simp at h
  | x :: l, 0, h => by
    obtain rfl : x = a := by simpa using h
    simp only [List.set_cons_zero, List.flatMap_cons]
    calc ((f a' ++ l.flatMap f) ++ f x).Perm (f x ++ (f a' ++ l.flatMap f)) :=
          List.perm_append_comm
      List.Perm _ (f x ++ (l.flatMap f ++ f a')) := List.perm_append_comm.append_left _
      _ = (f x ++ l.flatMap f) ++ f a' := (List.append_assoc ..).symm
  | x :: l, i + 1, h => by
    have ih := perm_flatMap_set f a' (l := l) (i := i) (by simpa using h)
    simp only [List.set_cons_succ, List.flatMap_cons, List.append_assoc]
    exact ih.append_left _

theorem perm_filterMap_set (f : α → Option β) (a' : α) (hi : l[i]? = some a) :
    ((l.set i a').filterMap f ++ (f a).toList).Perm (l.filterMap f ++ (f a').toList) := by
  simp only [List.filterMap_eq_flatMap_toList]
  exact perm_flatMap_set (fun a => (f a).toList) a' hi

theorem countP_set_add {q : α → Bool} {b : α} (hi : l[i]? = some a) :
    (l.set i b).countP q + (if q a then 1 else 0) = l.countP q + if q b then 1 else 0 := by
  obtain ⟨hlt, rfl⟩ := List.getElem?_eq_some_iff.1 hi
  have hpos : q l[i] = true → 0 < l.countP q := fun h =>
    List.countP_pos_iff.2 ⟨_, List.getElem_mem hlt, h⟩
  rw [List.countP_set hlt]
  by_cases ha : q l[i] = true
  · have := hpos ha
    simp only [ha, if_true]
    omega
  · simp only [ha]
    simp

theorem sum_map_set_add (f : α → ℕ) (a' : α) : ∀ {l : List α} {i : ℕ} {a : α}, l[i]? = some a →
    ((l.set i a').map f).sum + f a = (l.map f).sum + f a'
  | [], i, a, h => by simp at h
  | x :: l, 0, a, h => by
    obtain rfl : x = a := by simpa using h
    simp only [List.set_cons_zero, List.map_cons, List.sum_cons]
    omega
  | x :: l, i + 1, a, h => by
    have ih := sum_map_set_add f a' (l := l) (i := i) (a := a) (by simpa using h)
    simp only [List.set_cons_succ, List.map_cons, List.sum_cons]
    omega

end Pool
