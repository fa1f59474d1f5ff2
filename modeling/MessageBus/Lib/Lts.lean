import Mathlib.Data.List.Basic

/-!
# Runs of a labelled step function

A system is a start state and a step function that answers `none` where a label is not enabled.
`Always P ls` says `P` of every state the run of `ls` visits, `Throughout C ls` says `C` of every
step it takes, and `always_iff_throughout` is the rule that turns one step into whole runs: where
`C` is what a step must meet to keep the invariant, the runs that keep `P` are exactly those
whose steps all meet `C`. `Trapped P s` says that no run from `s` leaves `P`.
-/

/-- A system whose steps are computed: `step s l` is the state after `l`. -/
structure Lts (σ ℓ : Type*) where
  start : σ
  step : σ → ℓ → Option σ

namespace Lts

variable {σ ℓ : Type*} (M : Lts σ ℓ)

inductive Reachable : σ → Prop
  | start : Reachable M.start
  | step {s s' : σ} {l : ℓ} : Reachable s → M.step s l = some s' → Reachable s'

/-- The state after the labels in turn, `none` as soon as one is not enabled. -/
def runFrom : σ → List ℓ → Option σ
  | s, [] => some s
  | s, l :: ls => (M.step s l).bind fun s' => runFrom s' ls

def run (ls : List ℓ) : Option σ := M.runFrom M.start ls

def AlwaysFrom (P : σ → Prop) : σ → List ℓ → Prop
  | s, [] => P s
  | s, l :: ls => P s ∧ ∀ s', M.step s l = some s' → AlwaysFrom P s' ls

def ThroughoutFrom (C : σ → ℓ → Prop) : σ → List ℓ → Prop
  | _, [] => True
  | s, l :: ls => ∀ s', M.step s l = some s' → C s l ∧ ThroughoutFrom C s' ls

/-- Every state the run of `ls` visits satisfies `P`. -/
def Always (P : σ → Prop) (ls : List ℓ) : Prop := M.AlwaysFrom P M.start ls

/-- Every step the run of `ls` takes meets `C`. -/
def Throughout (C : σ → ℓ → Prop) (ls : List ℓ) : Prop := M.ThroughoutFrom C M.start ls

/-- Nothing the system can do from the state leaves `P`. -/
def Trapped (P : σ → Prop) (s : σ) : Prop := ∀ ls s', M.runFrom s ls = some s' → P s'

/-- The system without the labels that are not allowed. -/
def restrict (ok : ℓ → Bool) : Lts σ ℓ := ⟨M.start, fun s l => if ok l then M.step s l else none⟩

/-- The system beside a log of what its steps show. -/
def logged {ε : Type*} (notes : σ → ℓ → σ → List ε) : Lts (σ × List ε) ℓ :=
  ⟨(M.start, []), fun s l => (M.step s.1 l).map fun t => (t, s.2 ++ notes s.1 l t)⟩

variable {M}

theorem restrict_step {ok : ℓ → Bool} {s s' : σ} {l : ℓ} :
    (M.restrict ok).step s l = some s' ↔ ok l = true ∧ M.step s l = some s' :=
  Option.ite_none_right_eq_some

theorem Reachable.of_restrict {ok : ℓ → Bool} {s : σ} (h : (M.restrict ok).Reachable s) :
    M.Reachable s := by
  induction h with
  | start => exact .start
  | step _ hs ih => exact ih.step (restrict_step.1 hs).2

theorem runFrom_cons {s s' : σ} {l : ℓ} (h : M.step s l = some s') (ls : List ℓ) :
    M.runFrom s (l :: ls) = M.runFrom s' ls := by
  simp [runFrom, h]

/-- A run goes through wherever each of its steps does, in a system that has this one in it. -/
theorem runFrom_map {τ ℓ' : Type*} {N : Lts τ ℓ'} (f : σ → τ) (g : ℓ → ℓ') :
    ∀ (ls : List ℓ), (∀ l ∈ ls, ∀ s, N.step (f s) (g l) = (M.step s l).map f) → ∀ s,
      N.runFrom (f s) (ls.map g) = (M.runFrom s ls).map f
  | [], _, _ => rfl
  | l :: ls, h, s => by
    have hls : ∀ l ∈ ls, ∀ s, N.step (f s) (g l) = (M.step s l).map f :=
      fun l' hl' => h l' (List.mem_cons_of_mem l hl')
    rw [List.map_cons, runFrom, h l List.mem_cons_self, runFrom]
    cases M.step s l with
    | none => rfl
    | some s' => exact runFrom_map f g ls hls s'

theorem throughoutFrom_cons {C : σ → ℓ → Prop} {s s' : σ} {l : ℓ} (h : M.step s l = some s')
    (ls : List ℓ) : M.ThroughoutFrom C s (l :: ls) ↔ C s l ∧ M.ThroughoutFrom C s' ls := by
  simp [ThroughoutFrom, h]

theorem ThroughoutFrom.cons {C : σ → ℓ → Prop} {s s' : σ} {l : ℓ} {ls : List ℓ}
    (hs : M.step s l = some s') (hC : C s l) (h : M.ThroughoutFrom C s' ls) :
    M.ThroughoutFrom C s (l :: ls) :=
  (throughoutFrom_cons hs ls).2 ⟨hC, h⟩

theorem reachable_of_runFrom {s s' : σ} (hs : M.Reachable s) :
    ∀ {ls : List ℓ}, M.runFrom s ls = some s' → M.Reachable s'
  | [], h => by
    simp only [runFrom, Option.some.injEq] at h
    exact h ▸ hs
  | l :: ls, h => by
    simp only [runFrom, Option.bind_eq_some_iff] at h
    obtain ⟨t, ht, h⟩ := h
    exact reachable_of_runFrom (hs.step ht) h

theorem reachable_of_run {ls : List ℓ} {s : σ} (h : M.run ls = some s) : M.Reachable s :=
  reachable_of_runFrom .start h

/-- What holds at the start and is kept by every step holds at every reachable state. -/
theorem invariant {J : σ → Prop} (h0 : J M.start)
    (hstep : ∀ s l s', J s → M.step s l = some s' → J s') {s : σ} (h : M.Reachable s) : J s := by
  induction h with
  | start => exact h0
  | step _ hs ih => exact hstep _ _ _ ih hs

/-- The same for what holds of a state and the log of its run. -/
theorem logged_invariant {ε : Type*} {notes : σ → ℓ → σ → List ε} {J : σ → List ε → Prop}
    (h0 : J M.start [])
    (hstep : ∀ s log l s', J s log → M.step s l = some s' → J s' (log ++ notes s l s'))
    {s : σ} {log : List ε} (h : (M.logged notes).Reachable (s, log)) : J s log := by
  refine invariant (J := fun p => J p.1 p.2) h0 (fun p l p' hp hs => ?_) h
  obtain ⟨t, ht, rfl⟩ := Option.map_eq_some_iff.1 hs
  exact hstep _ _ _ _ hp ht

theorem trapped_of_invariant {J P : σ → Prop} (hJP : ∀ s, J s → P s)
    (hstep : ∀ s l s', J s → M.step s l = some s' → J s') {s : σ} (h : J s) : M.Trapped P s := by
  intro ls
  induction ls generalizing s with
  | nil =>
    intro s' hs
    simp only [runFrom, Option.some.injEq] at hs
    exact hs ▸ hJP s h
  | cons l ls ih =>
    intro s' hs
    simp only [runFrom, Option.bind_eq_some_iff] at hs
    obtain ⟨t, ht, hs⟩ := hs
    exact ih (hstep s l t h ht) s' hs

theorem Trapped.holds {P : σ → Prop} {s : σ} (h : M.Trapped P s) : P s := h [] s rfl

theorem Trapped.step {P : σ → Prop} {s s' : σ} {l : ℓ} (h : M.Trapped P s)
    (hs : M.step s l = some s') : M.Trapped P s' :=
  fun ls t ht => h (l :: ls) t (by rwa [runFrom_cons hs])

theorem Trapped.run {P : σ → Prop} : ∀ {ls : List ℓ} {s s' : σ}, M.Trapped P s →
    M.runFrom s ls = some s' → M.Trapped P s'
  | [], s, s', h, hr => by
    simp only [runFrom, Option.some.injEq] at hr
    exact hr ▸ h
  | l :: ls, s, s', h, hr => by
    simp only [runFrom, Option.bind_eq_some_iff] at hr
    obtain ⟨t, ht, hr⟩ := hr
    exact Trapped.run (h.step ht) hr

theorem AlwaysFrom.last {P : σ → Prop} : ∀ {ls : List ℓ} {s s' : σ}, M.AlwaysFrom P s ls →
    M.runFrom s ls = some s' → P s'
  | [], s, s', h, hr => by
    simp only [runFrom, Option.some.injEq] at hr
    exact hr ▸ h
  | l :: ls, s, s', h, hr => by
    simp only [runFrom, Option.bind_eq_some_iff] at hr
    obtain ⟨t, ht, hr⟩ := hr
    exact AlwaysFrom.last (h.2 t ht) hr

theorem Always.last {P : σ → Prop} {ls : List ℓ} {s : σ} (h : M.Always P ls)
    (hr : M.run ls = some s) : P s :=
  AlwaysFrom.last h hr

theorem alwaysFrom_of_throughoutFrom {J P : σ → Prop} {C : σ → ℓ → Prop}
    (hJP : ∀ s, J s → P s) (hgood : ∀ s l s', J s → M.step s l = some s' → C s l → J s') :
    ∀ {ls : List ℓ} {s : σ}, J s → M.ThroughoutFrom C s ls → M.AlwaysFrom P s ls
  | [], _, hs, _ => hJP _ hs
  | _ :: _, _, hs, h => ⟨hJP _ hs, fun s' hs' =>
      alwaysFrom_of_throughoutFrom hJP hgood (hgood _ _ s' hs hs' (h s' hs').1) (h s' hs').2⟩

theorem throughoutFrom_of_alwaysFrom {J P : σ → Prop} {C : σ → ℓ → Prop}
    (hgood : ∀ s l s', J s → M.step s l = some s' → C s l → J s')
    (hbad : ∀ s l s', J s → M.step s l = some s' → P s' → C s l) :
    ∀ {ls : List ℓ} {s : σ}, J s → M.AlwaysFrom P s ls → M.ThroughoutFrom C s ls
  | [], _, _, _ => trivial
  | l :: ls, s, hs, h => by
    intro s' hs'
    have hP : P s' := by
      cases ls with
      | nil => exact h.2 s' hs'
      | cons => exact (h.2 s' hs').1
    have hC := hbad s l s' hs hs' hP
    exact ⟨hC, throughoutFrom_of_alwaysFrom hgood hbad (hgood s l s' hs hs' hC) (h.2 s' hs')⟩

/-- Where a step from the invariant keeps it if it meets `C` and breaks `P` if it does not, the
runs that stay in `P` are exactly those whose steps all meet `C`. -/
theorem always_iff_throughout {J P : σ → Prop} {C : σ → ℓ → Prop} (h0 : J M.start)
    (hJP : ∀ s, J s → P s) (hgood : ∀ s l s', J s → M.step s l = some s' → C s l → J s')
    (hbad : ∀ s l s', J s → M.step s l = some s' → P s' → C s l) (ls : List ℓ) :
    M.Always P ls ↔ M.Throughout C ls :=
  ⟨throughoutFrom_of_alwaysFrom hgood hbad h0, alwaysFrom_of_throughoutFrom hJP hgood h0⟩

end Lts
