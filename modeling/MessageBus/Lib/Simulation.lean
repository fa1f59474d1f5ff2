import MessageBus.Lib.Lts

/-!
# Simulations between two systems

A relation is a simulation of one system by another where each step of the first is matched by one
step of the other, or by none. A run of the first then ends where some run of the other does, which
is no longer (`Simulation.runFrom`), and what each state of the other keeps is there to be used for
the first.
-/

namespace Lts

variable {σ τ ℓ κ : Type*} {M : Lts σ ℓ} {N : Lts τ κ} {R : σ → τ → Prop}

/-- `N` does what `M` does, in as many steps or fewer. -/
structure Simulation (M : Lts σ ℓ) (N : Lts τ κ) (R : σ → τ → Prop) : Prop where
  start : R M.start N.start
  step : ∀ s t l s', R s t → M.step s l = some s' →
    R s' t ∨ ∃ k t', N.step t k = some t' ∧ R s' t'

/-- A run is matched by one that is no longer. -/
theorem Simulation.runFrom (h : Simulation M N R) : ∀ {ls : List ℓ} {s s' : σ} {t : τ}, R s t →
    M.runFrom s ls = some s' → ∃ ks t', N.runFrom t ks = some t' ∧ ks.length ≤ ls.length ∧ R s' t'
  | [], s, s', t, hR, hr => by
    simp only [Lts.runFrom, Option.some.injEq] at hr
    subst hr
    exact ⟨[], t, rfl, Nat.le_refl _, hR⟩
  | l :: ls, s, s', t, hR, hr => by
    simp only [Lts.runFrom, Option.bind_eq_some_iff] at hr
    obtain ⟨u, hu, hr⟩ := hr
    rcases h.step _ _ _ _ hR hu with hR | ⟨k, v, hv, hR⟩
    · obtain ⟨ks, t', hks, hle, hR⟩ := h.runFrom hR hr
      exact ⟨ks, t', hks, Nat.le_succ_of_le hle, hR⟩
    · obtain ⟨ks, t', hks, hle, hR⟩ := h.runFrom hR hr
      exact ⟨k :: ks, t', by rw [runFrom_cons hv, hks], Nat.succ_le_succ hle, hR⟩

end Lts
