import MessageBus.Lib.Lts
import Mathlib.Algebra.BigOperators.Group.Finset.Basic

/-!
# Systems that come to a stop by themselves

Some of the labels are the system's own, the others what is done to it from outside. A state is
quiet where no step of its own is left. `Settles own n P s` says that from `s`, whichever of its
own steps the system takes next, it takes at most `n` and `P` holds where none is left; the rule
for it, `settles_of_work`, asks for the work that each such step takes away from. The work of a
family of systems changes by that of the one that steps (`sum_update_add`).
-/

namespace Lts

variable {σ ℓ : Type*} (M : Lts σ ℓ) (own : ℓ → Bool)

/-- No step of its own is left. -/
def Quiet (s : σ) : Prop := ∀ l, own l = true → M.step s l = none

/-- Left alone, the system stops within `n` steps, and where it stops `P` holds. -/
def Settles (n : ℕ) (P : σ → Prop) (s : σ) : Prop :=
  ∀ ls s', (M.restrict own).runFrom s ls = some s' → ls.length ≤ n ∧ (M.Quiet own s' → P s')

variable {M own}

/-- What the system's own steps keep and each of them takes work from. -/
theorem runFrom_work {J : σ → Prop} {work : σ → ℕ}
    (hstep : ∀ s l s', J s → own l = true → M.step s l = some s' → J s' ∧ work s' < work s) :
    ∀ {ls : List ℓ} {s s' : σ}, J s → (M.restrict own).runFrom s ls = some s' →
      J s' ∧ work s' + ls.length ≤ work s
  | [], s, s', h, hr => by
    simp only [runFrom, Option.some.injEq] at hr
    subst hr
    exact ⟨h, Nat.le_refl _⟩
  | l :: ls, s, s', h, hr => by
    simp only [runFrom, Option.bind_eq_some_iff] at hr
    obtain ⟨t, ht, hr⟩ := hr
    obtain ⟨hown, ht⟩ := restrict_step.1 ht
    obtain ⟨ht, hless⟩ := hstep s l t h hown ht
    obtain ⟨hs', hle⟩ := runFrom_work hstep ht hr
    refine ⟨hs', ?_⟩
    rw [List.length_cons]
    omega

theorem sum_update_add {ι : Type*} [Fintype ι] [DecidableEq ι] {τ : ι → Type*}
    (work : ∀ i, τ i → ℕ) (s : ∀ i, τ i) (i : ι) (t : τ i) :
    ∑ j, work j (Function.update s i t j) + work i (s i) = ∑ j, work j (s j) + work i t := by
  have hrest : ∑ j ∈ Finset.univ.erase i, work j (Function.update s i t j)
      = ∑ j ∈ Finset.univ.erase i, work j (s j) :=
    Finset.sum_congr rfl fun j hj => by rw [Function.update_of_ne (Finset.ne_of_mem_erase hj)]
  have hi := Finset.mem_univ i
  rw [← Finset.add_sum_erase _ _ hi, ← Finset.add_sum_erase _ (fun j => work j (s j)) hi,
    Function.update_self, hrest]
  omega

theorem settles_of_work {J P : σ → Prop} {work : σ → ℕ}
    (hstep : ∀ s l s', J s → own l = true → M.step s l = some s' → J s' ∧ work s' < work s)
    (hrest : ∀ s, J s → M.Quiet own s → P s) {s : σ} (h : J s) : M.Settles own (work s) P s := by
  intro ls s' hr
  obtain ⟨hs', hle⟩ := runFrom_work hstep h hr
  exact ⟨by omega, hrest s' hs'⟩

theorem Settles.of_quiet {n : ℕ} {P : σ → Prop} {s : σ} (h : M.Settles own n P s)
    (hq : M.Quiet own s) : P s :=
  (h [] s rfl).2 hq

end Lts
