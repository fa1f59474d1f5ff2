import Mathlib.Data.List.Basic
import Mathlib.Logic.Relation

/-!
# Passes over a list of places, until one finds nothing to do

A pass looks at each place in turn and works on the places that need it. A run makes passes until
one works nowhere, at most as many as its fuse allows. `pass_induct` is the rule for a pass, with
an invariant that names the places still to be looked at; `pass_first` says that a pass that works
somewhere first does so in the state it starts from; `run_map` carries a run along a map of states,
`run_cut` along one that leaves out the places not looked at.
-/

namespace Sweep

variable {S T ι : Type*}

/-- How a run ends: whether by a pass that works nowhere, and after how many passes. -/
structure End (S : Type*) where
  state : S
  breaked : Bool
  iters : ℕ

section Passes

variable (need : S → ι → Bool) (work : S → ι → S)

/-- One look at a place; the flag says whether the pass has worked anywhere. -/
def visit (p : S × Bool) (r : ι) : S × Bool :=
  if need p.1 r then (work p.1 r, true) else p

def pass (order : List ι) (s : S) : S × Bool :=
  order.foldl (visit need work) (s, false)

def run (order : List ι) : ℕ → ℕ → S → End S
  | 0, iters, s => ⟨s, false, iters⟩
  | fuse + 1, iters, s =>
    if (pass need work order s).2 then run order fuse (iters + 1) (pass need work order s).1
    else ⟨(pass need work order s).1, true, iters + 1⟩

/-- Work on one place that needs it. -/
def Works (s s' : S) : Prop := ∃ r, need s r = true ∧ s' = work s r

end Passes

variable {need : S → ι → Bool} {work : S → ι → S}

theorem visit_of_need {p : S × Bool} {r : ι} (h : need p.1 r = true) :
    visit need work p r = (work p.1 r, true) := if_pos h

theorem visit_of_not_need {p : S × Bool} {r : ι} (h : need p.1 r = false) :
    visit need work p r = p := if_neg (by simp [h])

theorem visits_works : ∀ (order : List ι) (p : S × Bool),
    Relation.ReflTransGen (Works need work) p.1 (order.foldl (visit need work) p).1
  | [], _ => .refl
  | r :: rs, p => by
    rw [List.foldl_cons]
    cases h : need p.1 r with
    | true =>
      rw [visit_of_need h]
      exact .head ⟨r, h, rfl⟩ (visits_works rs (work p.1 r, true))
    | false =>
      rw [visit_of_not_need h]
      exact visits_works rs p

theorem pass_works (order : List ι) (s : S) :
    Relation.ReflTransGen (Works need work) s (pass need work order s).1 :=
  visits_works order (s, false)

theorem run_works (order : List ι) : ∀ (fuse iters : ℕ) (s : S),
    Relation.ReflTransGen (Works need work) s (run need work order fuse iters s).state
  | 0, _, _ => .refl
  | fuse + 1, iters, s => by
    unfold run
    split
    · exact (pass_works order s).trans (run_works order fuse _ _)
    · exact pass_works order s

/-- An invariant of the visits, whose first argument is what is left of the order. -/
theorem visits_induct {I : List ι → S → Prop}
    (hskip : ∀ r rs s, I (r :: rs) s → need s r = false → I rs s)
    (hwork : ∀ r rs s, I (r :: rs) s → need s r = true → I rs (work s r)) :
    ∀ (order : List ι) (p : S × Bool), I order p.1 → I [] (order.foldl (visit need work) p).1
  | [], _, h => h
  | r :: rs, p, h => by
    rw [List.foldl_cons]
    cases hr : need p.1 r with
    | true =>
      rw [visit_of_need hr]
      exact visits_induct hskip hwork rs _ (hwork r rs _ h hr)
    | false =>
      rw [visit_of_not_need hr]
      exact visits_induct hskip hwork rs _ (hskip r rs _ h hr)

theorem pass_induct {I : List ι → S → Prop}
    (hskip : ∀ r rs s, I (r :: rs) s → need s r = false → I rs s)
    (hwork : ∀ r rs s, I (r :: rs) s → need s r = true → I rs (work s r))
    {order : List ι} {s : S} (h : I order s) : I [] (pass need work order s).1 :=
  visits_induct hskip hwork order _ h

/-- Once a pass has worked somewhere, it has. -/
theorem visits_true : ∀ (order : List ι) (s : S), (order.foldl (visit need work) (s, true)).2 = true
  | [], _ => rfl
  | r :: rs, s => by
    rw [List.foldl_cons]
    cases h : need s r with
    | true =>
      rw [visit_of_need h]
      exact visits_true rs _
    | false =>
      rw [visit_of_not_need h]
      exact visits_true rs s

/-- A pass that works nowhere changes nothing, and no place needed work. -/
theorem pass_quiet : ∀ {order : List ι} {s : S}, (pass need work order s).2 = false →
    (pass need work order s).1 = s ∧ ∀ r ∈ order, need s r = false
  | [], _, _ => ⟨rfl, by simp⟩
  | r :: rs, s, h => by
    unfold pass at h ⊢
    rw [List.foldl_cons] at h ⊢
    cases hr : need s r with
    | true =>
      rw [visit_of_need hr, visits_true] at h
      cases h
    | false =>
      rw [visit_of_not_need hr] at h ⊢
      obtain ⟨hs, hrs⟩ := pass_quiet h
      refine ⟨hs, fun q hq => ?_⟩
      rcases List.mem_cons.1 hq with rfl | hq
      · exact hr
      · exact hrs q hq

/-- The first place a pass works on needed it when the pass began. -/
theorem pass_first : ∀ {order : List ι} {s : S}, (pass need work order s).2 = true →
    ∃ r ∈ order, need s r = true
      ∧ Relation.ReflTransGen (Works need work) (work s r) (pass need work order s).1
  | [], _, h => by cases h
  | r :: rs, s, h => by
    unfold pass at h ⊢
    rw [List.foldl_cons] at h ⊢
    cases hr : need s r with
    | true =>
      rw [visit_of_need hr]
      exact ⟨r, List.mem_cons_self, hr, visits_works rs (work s r, true)⟩
    | false =>
      rw [visit_of_not_need hr] at h ⊢
      obtain ⟨q, hq, hneed, hworks⟩ := pass_first h
      exact ⟨q, List.mem_cons_of_mem r hq, hneed, hworks⟩

section Map

variable {need' : T → ι → Bool} {work' : T → ι → T} (f : S → T)
  (hneed : ∀ s r, need' (f s) r = need s r) (hwork : ∀ s r, work' (f s) r = f (work s r))

include hneed hwork

theorem visits_map : ∀ (order : List ι) (p : S × Bool),
    order.foldl (visit need' work') (f p.1, p.2)
      = (f (order.foldl (visit need work) p).1, (order.foldl (visit need work) p).2)
  | [], _ => rfl
  | r :: rs, p => by
    rw [List.foldl_cons, List.foldl_cons]
    cases h : need p.1 r with
    | true =>
      rw [visit_of_need h, visit_of_need (p := (f p.1, p.2)) ((hneed p.1 r).trans h), hwork]
      exact visits_map rs (work p.1 r, true)
    | false =>
      rw [visit_of_not_need h, visit_of_not_need (p := (f p.1, p.2)) ((hneed p.1 r).trans h)]
      exact visits_map rs p

theorem pass_map (order : List ι) (s : S) :
    pass need' work' order (f s) = (f (pass need work order s).1, (pass need work order s).2) :=
  visits_map f hneed hwork order (s, false)

theorem run_map (order : List ι) : ∀ (fuse iters : ℕ) (s : S),
    run need' work' order fuse iters (f s)
      = ⟨f (run need work order fuse iters s).state, (run need work order fuse iters s).breaked,
          (run need work order fuse iters s).iters⟩
  | 0, _, _ => rfl
  | fuse + 1, iters, s => by
    unfold run
    rw [pass_map f hneed hwork]
    cases (pass need work order s).2 with
    | true => exact run_map order fuse _ _
    | false => rfl

end Map

section Cut

variable {κ : Type*} {need' : T → κ → Bool} {work' : T → κ → T} (f : S → T) (g : κ → ι)
  (hneed : ∀ s r, need' (f s) r = need s (g r)) (hwork : ∀ s r, work' (f s) r = f (work s (g r)))

include hneed hwork

theorem visits_cut : ∀ (order : List κ) (p : S × Bool),
    order.foldl (visit need' work') (f p.1, p.2)
      = (f ((order.map g).foldl (visit need work) p).1,
        ((order.map g).foldl (visit need work) p).2)
  | [], _ => rfl
  | r :: rs, p => by
    rw [List.foldl_cons, List.map_cons, List.foldl_cons]
    cases h : need p.1 (g r) with
    | true =>
      rw [visit_of_need h, visit_of_need (p := (f p.1, p.2)) ((hneed p.1 r).trans h), hwork]
      exact visits_cut rs (work p.1 (g r), true)
    | false =>
      rw [visit_of_not_need h, visit_of_not_need (p := (f p.1, p.2)) ((hneed p.1 r).trans h)]
      exact visits_cut rs p

/-- A run over some of the places is a run where there are no others. -/
theorem run_cut (order : List κ) : ∀ (fuse iters : ℕ) (s : S),
    run need' work' order fuse iters (f s)
      = ⟨f (run need work (order.map g) fuse iters s).state,
          (run need work (order.map g) fuse iters s).breaked,
          (run need work (order.map g) fuse iters s).iters⟩
  | 0, _, _ => rfl
  | fuse + 1, iters, s => by
    have hpass : pass need' work' order (f s)
        = (f (pass need work (order.map g) s).1, (pass need work (order.map g) s).2) :=
      visits_cut f g hneed hwork order (s, false)
    unfold run
    rw [hpass]
    cases (pass need work (order.map g) s).2 with
    | true => exact run_cut order fuse _ _
    | false => rfl

end Cut

end Sweep
