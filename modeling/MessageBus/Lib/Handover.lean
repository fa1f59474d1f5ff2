import Mathlib.Data.List.Perm.Basic

/-!
# Tokens that move

A step turns a list of tokens into another: it gives some of them up for new ones and may lose
some, and keeps the rest in whatever order. `Handover` says so by counting; what there is at most
one of stays so (`at_most_one`), and nothing comes from nowhere (`mem`).
-/

variable {α : Type*} {T T' new old : List α}

/-- `T'` comes out of `T` by giving `old` for `new`, less what is lost. -/
def Handover (new old T T' : List α) : Prop :=
  ∀ q : α → Bool, old.countP q + T'.countP q ≤ new.countP q + T.countP q

namespace Handover

theorem of_sublist (h : List.Sublist T' T) : Handover [] [] T T' := by
  intro q
  have := h.countP_le (p := q)
  simpa using this

theorem refl (T : List α) : Handover [] [] T T := of_sublist (.refl T)

theorem of_perm {a b : List α} (h : (old ++ b).Perm (new ++ a)) : Handover new old a b := by
  intro q
  have := h.countP_eq q
  simp only [List.countP_append] at this
  omega

theorem added (T new : List α) : Handover new [] T (T ++ new) := by
  intro q
  simp only [List.countP_append, List.countP_nil]
  omega

theorem tail {β : Type*} (f : β → Option α) (b : β) (l : List β) :
    Handover [] (f b).toList ((b :: l).filterMap f) (l.filterMap f) := by
  refine of_perm ?_
  rw [List.filterMap_cons]
  rcases f b with _ | t <;> exact .refl _

theorem forget (h : Handover new old T T') : Handover new [] T T' := by
  intro q
  have := h q
  rw [List.countP_nil]
  omega

theorem append {U U' new' : List α} (h : Handover new old T T') (h' : Handover new' [] U U') :
    Handover (new ++ new') old (T ++ U) (T' ++ U') := by
  intro q
  have := h q
  have := h' q
  simp only [List.countP_append, List.countP_nil] at this ⊢
  omega

theorem join {U U' new' old' : List α} (h : Handover new old T T') (h' : Handover new' old' U U') :
    Handover (new ++ new') (old ++ old') (T ++ U) (T' ++ U') := by
  intro q
  have := h q
  have := h' q
  simp only [List.countP_append] at this ⊢
  omega

/-- What is given for itself stays. -/
theorem cancel (h : Handover old old T T') : Handover [] [] T T' := by
  intro q
  have := h q
  simp only [List.countP_nil]
  omega

theorem at_most_one (h : Handover new old T T') {q : α → Bool} (hT : T.countP q ≤ 1)
    (hnew : new.countP q ≤ old.countP q ∨ new.countP q ≤ 1 ∧ T.countP q = 0) :
    T'.countP q ≤ 1 := by
  have := h q
  omega

theorem mem (h : Handover new old T T') {t : α} (ht : t ∈ T') : t ∈ new ∨ t ∈ T := by
  classical
  have hcount := h fun t' => decide (t' = t)
  have hpos : 0 < T'.countP fun t' => decide (t' = t) :=
    List.countP_pos_iff.2 ⟨t, ht, decide_eq_true rfl⟩
  by_cases hn : 0 < new.countP fun t' => decide (t' = t)
  · obtain ⟨t', ht', heq⟩ := List.countP_pos_iff.1 hn
    exact .inl (of_decide_eq_true heq ▸ ht')
  · have hT : 0 < T.countP fun t' => decide (t' = t) := by omega
    obtain ⟨t', ht', heq⟩ := List.countP_pos_iff.1 hT
    exact .inr (of_decide_eq_true heq ▸ ht')

/-- What is given up was there, unless it is new. -/
theorem mem_old (h : Handover new old T T') {t : α} (ht : t ∈ old) (hn : t ∉ new) : t ∈ T := by
  classical
  have hcount := h fun t' => decide (t' = t)
  have hpos : 0 < old.countP fun t' => decide (t' = t) :=
    List.countP_pos_iff.2 ⟨t, ht, decide_eq_true rfl⟩
  have hzero : (new.countP fun t' => decide (t' = t)) = 0 :=
    List.countP_eq_zero.2 fun t' ht' heq => hn (of_decide_eq_true heq ▸ ht')
  have hT : 0 < T.countP fun t' => decide (t' = t) := by omega
  obtain ⟨t', ht', heq⟩ := List.countP_pos_iff.1 hT
  exact of_decide_eq_true heq ▸ ht'

end Handover
