import Mathlib.Data.List.Induction
import Mathlib.Data.List.Nodup
import Mathlib.Logic.Function.Basic
import Mathlib.Tactic.SplitIfs

/-!
# An index of sets

Items are entered under keys, each key holding a set of items told apart by an identity. Where the
identities of the items entered are distinct, the index holds each item exactly once under each of
its keys and under no other (`mem_build`, `nodup_build`).
-/

namespace Index

variable {κ α ι : Type*} [DecidableEq κ] [DecidableEq ι] (ident : α → ι)

/-- An insertion into a set: an item of the same identity stays. -/
def add (l : List α) (a : α) : List α := if ident a ∈ l.map ident then l else l ++ [a]

/-- The set under the key is made where there is none. -/
def enter (m : κ → Option (List α)) (e : κ × α) : κ → Option (List α) :=
  Function.update m e.1 (some (add ident ((m e.1).getD []) e.2))

def build (es : List (κ × α)) : κ → Option (List α) := es.foldl (enter ident) fun _ => none

variable {ident}

theorem nodup_add {l : List α} {a : α} (h : (l.map ident).Nodup) :
    ((add ident l a).map ident).Nodup := by
  unfold add
  split_ifs with ha
  · exact h
  · rw [List.map_append, List.map_singleton]
    exact List.Nodup.append h (List.nodup_singleton _) (by simpa using ha)

theorem mem_add {l : List α} {a x : α} (h : ∀ y ∈ l, ident y = ident a → y = a) :
    x ∈ add ident l a ↔ x ∈ l ∨ x = a := by
  unfold add
  split_ifs with ha
  · obtain ⟨y, hy, hya⟩ := List.mem_map.1 ha
    have := h y hy hya
    subst this
    constructor
    · exact .inl
    · rintro (hx | rfl)
      · exact hx
      · exact hy
  · simp

theorem build_concat (es : List (κ × α)) (e : κ × α) :
    build ident (es ++ [e]) = enter ident (build ident es) e := by
  simp [build]

theorem getD_enter (m : κ → Option (List α)) (e : κ × α) (q : κ) : (enter ident m e q).getD []
    = if q = e.1 then add ident ((m q).getD []) e.2 else (m q).getD [] := by
  unfold enter
  split_ifs with hq
  · rw [hq, Function.update_self, Option.getD_some]
  · rw [Function.update_of_ne hq]

theorem nodup_build (es : List (κ × α)) (q : κ) :
    (((build ident es q).getD []).map ident).Nodup := by
  induction es using List.reverseRecOn with
  | nil => exact List.nodup_nil
  | append_singleton es e ih =>
    rw [build_concat, getD_enter]
    split_ifs
    · exact nodup_add ih
    · exact ih

theorem mem_build {es : List (κ × α)}
    (hid : ∀ e ∈ es, ∀ e' ∈ es, ident e.2 = ident e'.2 → e.2 = e'.2) {q : κ} {a : α} :
    a ∈ (build ident es q).getD [] ↔ (q, a) ∈ es := by
  induction es using List.reverseRecOn generalizing a with
  | nil => simp [build]
  | append_singleton es e ih =>
    have ih : ∀ {a}, a ∈ (build ident es q).getD [] ↔ (q, a) ∈ es := ih fun e' he' e'' he'' =>
      hid e' (List.mem_append_left _ he') e'' (List.mem_append_left _ he'')
    rw [build_concat, getD_enter, List.mem_append, List.mem_singleton, ← ih]
    split_ifs with hq
    · rw [mem_add]
      · subst hq
        simp [Prod.ext_iff]
      · intro y hy hya
        exact hid (q, y) (List.mem_append_left _ (ih.1 hy)) e
          (List.mem_append_right _ (by simp)) hya
    · simp [Prod.ext_iff, hq]

end Index
