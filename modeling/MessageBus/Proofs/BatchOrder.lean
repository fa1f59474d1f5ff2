import MessageBus.Proofs.BatchBarrier

/-!
# The order in which a handler sees its batches

The state of the handler is the fold of its calls over the batches in the order their tasks got the
mutex (`Folded`). Each task asks for it on its own, so this is the order of the queue for every
schedule only where there is at most one batch.
-/

namespace MessageBus

open Batching

variable {M R E H : Type}

section Folded

/-- The call of a task, none beyond the last. -/
def callAt (calls : List (H → H)) (h : H) (i : ℕ) : H := calls.getD i id h

variable {h₀ h : H} {calls calls' : List (H → H)} {phases phases' : List CallPhase}
  {lock lock' : List Holder} {order done : List ℕ} {now : Option ℕ}

/-- The tasks that got the mutex are the ones that began, all over but at most the last, which has
it; and the state is what those that are over have made of it. -/
structure Folded (h₀ : H) (calls : List (H → H)) (phases : List CallPhase) (lock : List Holder)
    (order : List ℕ) (h : H) (done : List ℕ) (now : Option ℕ) : Prop where
  sized : phases.length = calls.length
  split : order = done ++ now.toList
  nodup : order.Nodup
  began : ∀ i phase, phases[i]? = some phase → (i ∈ order ↔ phase ≠ .waiting)
  lt : ∀ i ∈ order, i < phases.length
  ended : ∀ i ∈ done, phases[i]? = some .over
  holds : ∀ i ∈ now, phases[i]? = some .running ∧ lock.head? = some (.task i)
  state : h = done.foldl (callAt calls) h₀

namespace Folded

theorem start : Folded h₀ [] [] [] [] h₀ [] none :=
  ⟨rfl, rfl, List.nodup_nil, by simp, by simp, by simp, by simp, rfl⟩

theorem mem_order (hf : Folded h₀ calls phases lock order h done now) {i : ℕ} :
    i ∈ order ↔ i ∈ done ∨ now = some i := by
  rw [hf.split, List.mem_append, Option.mem_toList]

/-- Whoever else asks for the mutex is behind its holder. -/
theorem ask (hf : Folded h₀ calls phases lock order h done now) (x : List Holder) :
    Folded h₀ calls phases (lock ++ x) order h done now := by
  refine { hf with holds := fun i hi => ?_ }
  obtain ⟨hphase, hhead⟩ := hf.holds i hi
  rw [List.head?_append, hhead]
  exact ⟨hphase, rfl⟩

theorem spawn (hf : Folded h₀ calls phases lock order h done now) (call : H → H) :
    Folded h₀ (calls ++ [call]) (phases ++ [.waiting]) lock order h done now where
  sized := by simp [hf.sized]
  split := hf.split
  nodup := hf.nodup
  began i phase hi := by
    by_cases hlt : i < phases.length
    · rw [List.getElem?_append_left hlt] at hi
      exact hf.began i phase hi
    · rw [List.getElem?_append_right (by omega), List.getElem?_singleton] at hi
      split_ifs at hi
      cases hi
      exact iff_of_false (fun hmem => hlt (hf.lt i hmem)) (not_not.2 rfl)
  lt i hi := by
    have := hf.lt i hi
    simp only [List.length_append]
    omega
  ended i hi := by
    rw [List.getElem?_append_left (hf.lt i (hf.mem_order.2 (.inl hi)))]
    exact hf.ended i hi
  holds i hi := by
    rw [List.getElem?_append_left (hf.lt i (hf.mem_order.2 (.inr hi)))]
    exact hf.holds i hi
  state := by
    refine hf.state.trans (List.foldl_ext _ _ _ fun a i hi => ?_)
    have hlt := hf.lt i (hf.mem_order.2 (.inl hi))
    rw [hf.sized] at hlt
    simp [callAt, List.getElem?_append_left hlt]

/-- No task has the mutex while one that waits is first in line. -/
theorem now_eq_none (hf : Folded h₀ calls phases lock order h done now) {i : ℕ}
    (hi : phases[i]? = some .waiting) (hhead : lock.head? = some (.task i)) : now = none := by
  rcases now with _ | j
  · rfl
  · obtain ⟨hj, hjhead⟩ := hf.holds j rfl
    rw [hjhead] at hhead
    cases hhead
    simp [hj] at hi

/-- The task that gets the mutex is the last to have got it. -/
theorem begin (hf : Folded h₀ calls phases lock order h done now) {i : ℕ}
    (hi : phases[i]? = some .waiting) (hhead : lock.head? = some (.task i)) :
    Folded h₀ calls (phases.set i .running) lock (order ++ [i]) h done (some i) := by
  have hlt : i < phases.length := (List.getElem?_eq_some_iff.1 hi).1
  have hmem : i ∉ order := fun hmem => (hf.began i _ hi).1 hmem rfl
  have horder : order = done := by simpa [hf.now_eq_none hi hhead] using hf.split
  constructor
  · simp [hf.sized]
  · simp [horder]
  · rw [List.nodup_append]
    refine ⟨hf.nodup, by simp, fun a ha b hb hab => hmem ?_⟩
    rwa [← List.mem_singleton.1 hb, ← hab]
  · intro j phase hj
    rw [List.mem_append, List.mem_singleton]
    by_cases hij : i = j
    · subst hij
      rw [List.getElem?_set_self hlt] at hj
      cases hj
      exact iff_of_true (.inr rfl) (by simp)
    · rw [List.getElem?_set_ne hij] at hj
      rw [← hf.began j phase hj]
      exact or_iff_left (Ne.symm hij)
  · intro j hj
    rw [List.length_set]
    rcases List.mem_append.1 hj with hj | hj
    · exact hf.lt j hj
    · rwa [List.mem_singleton.1 hj]
  · intro j hj
    have hne : i ≠ j := by
      rintro rfl
      exact hmem (horder ▸ hj)
    rw [List.getElem?_set_ne hne]
    exact hf.ended j hj
  · rintro j ⟨⟩
    exact ⟨List.getElem?_set_self hlt, hhead⟩
  · exact hf.state

/-- A call that ends is the one that has the mutex. -/
theorem finish (hf : Folded h₀ calls phases lock order h done now) {i : ℕ}
    (hi : phases[i]? = some .running) :
    Folded h₀ calls (phases.set i .over) lock.tail order (callAt calls h i) (done ++ [i]) none := by
  have hlt : i < phases.length := (List.getElem?_eq_some_iff.1 hi).1
  have hnow : now = some i := by
    rcases hf.mem_order.1 ((hf.began i _ hi).2 (by simp)) with hdone | hnow
    · have := hf.ended i hdone
      rw [hi] at this
      cases this
    · exact hnow
  have hdone : i ∉ done := fun hdone => by
    have := hf.ended i hdone
    rw [hi] at this
    cases this
  subst hnow
  constructor
  · simp [hf.sized]
  · simpa using hf.split
  · exact hf.nodup
  · intro j phase hj
    by_cases hij : i = j
    · subst hij
      rw [List.getElem?_set_self hlt] at hj
      cases hj
      exact iff_of_true (hf.mem_order.2 (.inr rfl)) (by simp)
    · rw [List.getElem?_set_ne hij] at hj
      exact hf.began j phase hj
  · simpa using hf.lt
  · intro j hj
    by_cases hij : i = j
    · subst hij
      exact List.getElem?_set_self hlt
    · rw [List.getElem?_set_ne hij]
      rcases List.mem_append.1 hj with hj | hj
      · exact hf.ended j hj
      · exact absurd (List.mem_singleton.1 hj).symm hij
  · exact fun _ hi => by cases hi
  · rw [List.foldl_append, ← hf.state]
    rfl

end Folded

end Folded

namespace HandledBatches

variable {cfg : SynchronizedBatchedConfig} {f : BatchSynchronizedHandler M R E H} {h₀ : H}
  {s s' : HandledBatches M R E H}

/-- What a batch makes of the state. -/
def calls (f : BatchSynchronizedHandler M R E H) (tasks : List (BatchTask M R E)) :
    List (H → H) :=
  tasks.map fun t h => (f.handle h t.batch.msgs).1

/-- The handler is what the calls that are over have made of it. -/
def Folds (f : BatchSynchronizedHandler M R E H) (h₀ : H) (s : HandledBatches M R E H) : Prop :=
  ∃ done now, Folded h₀ (calls f s.poller.core.tasks) (s.poller.core.tasks.map (·.stage.phase))
    s.poller.lock s.order s.handler done now

theorem Folds.congr (h : Folds f h₀ s) (ht : s'.poller.core.tasks = s.poller.core.tasks)
    (hl : s'.poller.lock = s.poller.lock) (ho : s'.order = s.order)
    (hh : s'.handler = s.handler) : Folds f h₀ s' := by
  unfold Folds
  rw [ht, hl, ho, hh]
  exact h

theorem Folds.spawn (h : Folds f h₀ s) (batch : Batch M)
    (ht : s'.poller.core.tasks = s.poller.core.tasks ++ [⟨batch, .spawned⟩])
    (hl : s'.poller.lock = s.poller.lock) (ho : s'.order = s.order)
    (hh : s'.handler = s.handler) : Folds f h₀ s' := by
  obtain ⟨done, now, h⟩ := h
  refine ⟨done, now, ?_⟩
  rw [ht, hl, ho, hh, calls, List.map_append, List.map_append]
  exact h.spawn _

variable (cfg) in
/-- An item is put in a task of its own, or no task. -/
theorem tasks_body (s : SynchronizedBatched M R E) (item : Request M) :
    (s.body cfg item).lock = s.lock
      ∧ ((s.body cfg item).core.tasks = s.core.tasks
        ∨ ∃ batch, (s.body cfg item).core.tasks = s.core.tasks ++ [⟨batch, .spawned⟩]) := by
  refine ⟨by rcases item with a | ⟨mid, msg, req⟩ <;> [cases a; skip] <;> rfl, ?_⟩
  rcases item with a | ⟨mid, msg, req⟩
  · rcases a with id | _ | _ | _ | _
    · exact .inl rfl
    · simp only [SynchronizedBatched.body]
      split_ifs
      · exact .inl rfl
      · exact .inr ⟨_, rfl⟩
    · exact .inl rfl
    · exact .inl rfl
    · exact .inl rfl
  · simp only [SynchronizedBatched.body]
    split_ifs
    · exact .inr ⟨_, rfl⟩
    · exact .inl rfl

theorem Folds.set (h : Folds f h₀ s) {i : ℕ} {batch : Batch M} {stage stage' : TaskStage R E}
    (hi : s.poller.core.tasks[i]? = some ⟨batch, stage⟩) (hphase : stage'.phase = stage.phase)
    (ht : s'.poller.core.tasks = s.poller.core.tasks.set i ⟨batch, stage'⟩)
    (hl : s'.poller.lock = s.poller.lock) (ho : s'.order = s.order)
    (hh : s'.handler = s.handler) : Folds f h₀ s' := by
  unfold Folds calls
  rw [ht, hl, ho, hh, Pool.map_set_of_eq hi ⟨batch, stage'⟩ rfl,
    Pool.map_set_of_eq hi ⟨batch, stage'⟩ hphase]
  exact h

theorem Folds.begin (h : Folds f h₀ s) {i : ℕ} {p : SynchronizedBatched M R E}
    (hp : s.poller.step cfg (.run (.start i)) = some p) :
    Folds f h₀ { s with poller := p, order := s.order ++ [i] } := by
  obtain ⟨done, now, h⟩ := h
  cases SynchronizedBatched.move hp with
  | start _ c hhead hc =>
    obtain ⟨batch, hi, rfl⟩ := BatchCore.startTask_eq_some hc
    refine ⟨done, some i, ?_⟩
    have := h.begin (i := i) (by simp [hi, TaskStage.phase]) hhead
    simpa [calls, List.map_set, Pool.map_set_of_eq hi, TaskStage.phase] using this

theorem Folds.finish (h : Folds f h₀ s) {i : ℕ} {t : BatchTask M R E}
    (ht : s.poller.core.tasks[i]? = some t) {resp : Except E (List R)}
    {p : SynchronizedBatched M R E} (hp : s.poller.step cfg (.run (.finish i resp)) = some p) :
    Folds f h₀ { s with poller := p, handler := (f.handle s.handler t.batch.msgs).1 } := by
  obtain ⟨done, now, h⟩ := h
  cases SynchronizedBatched.move hp with
  | finish _ _ c hhead hc =>
    obtain ⟨batch, hi, rfl⟩ := BatchCore.finishTask_eq_some hc
    obtain rfl : t = ⟨batch, .handling⟩ := by simpa [hi] using ht.symm
    refine ⟨done ++ [i], none, ?_⟩
    have hcall : callAt (calls f s.poller.core.tasks) s.handler i
        = (f.handle s.handler batch.msgs).1 := by
      simp [callAt, calls, hi]
    have := h.finish (i := i) (by simp [hi, TaskStage.phase])
    rw [hcall] at this
    simpa [calls, List.map_set, Pool.map_set_of_eq hi, TaskStage.phase] using this

/-- The steps of the poller in which nobody gets the mutex and nobody gives it back. -/
def aside : PollerLabel M (SynchronizedBatchedLabel R E) → Bool
  | .push _ | .run .recv | .run (.ask _) | .run (.send _) | .run .askSync | .run .startSync => true
  | _ => false

/-- What the handler and the order see of the poller's steps. -/
inductive Move (cfg : SynchronizedBatchedConfig) (f : BatchSynchronizedHandler M R E H)
    (s : HandledBatches M R E H) : HandledBatches M R E H → Prop
  | aside {l p} : s.poller.step cfg l = some p → aside l = true →
      Move cfg f s { s with poller := p }
  | start {i p} : s.poller.step cfg (.run (.start i)) = some p →
      Move cfg f s { s with poller := p, order := s.order ++ [i] }
  | finish {i t p} : s.poller.core.tasks[i]? = some t →
      s.poller.step cfg (.run (.finish i (f.handle s.handler t.batch.msgs).2)) = some p →
      Move cfg f s { s with poller := p, handler := (f.handle s.handler t.batch.msgs).1 }
  | synced {p} : s.poller.step cfg (.run (.syncDone (f.sync s.handler).2)) = some p →
      Move cfg f s { s with poller := p, handler := (f.sync s.handler).1 }

theorem move {l : PollerLabel M HandledLabel} (hs : s.step cfg f l = some s') :
    Move cfg f s s' := by
  have haside : ∀ l', aside l' = true →
      (s.poller.step cfg l').map (fun poller => { s with poller }) = some s' →
        Move cfg f s s' := by
    intro l' hl' h
    obtain ⟨p, hp, rfl⟩ := Option.map_eq_some_iff.1 h
    exact .aside hp hl'
  rcases l with item | l
  · exact haside (.push item) rfl hs
  · rcases l with _ | i | i | i | i | _ | _ | _
    · exact haside (.run .recv) rfl hs
    · exact haside (.run (.ask i)) rfl hs
    · obtain ⟨p, hp, rfl⟩ := Option.map_eq_some_iff.1 hs
      exact .start hp
    · obtain ⟨t, ht, hs⟩ := Option.bind_eq_some_iff.1 hs
      obtain ⟨p, hp, rfl⟩ := Option.map_eq_some_iff.1 hs
      exact .finish ht hp
    · exact haside (.run (.send i)) rfl hs
    · exact haside (.run .askSync) rfl hs
    · exact haside (.run .startSync) rfl hs
    · obtain ⟨p, hp, rfl⟩ := Option.map_eq_some_iff.1 hs
      exact .synced hp

theorem folds_step {l : PollerLabel M HandledLabel} (h : Folds f h₀ s)
    (hpc : s.poller.pc ≠ .syncing) (hs : s.step cfg f l = some s') : Folds f h₀ s' := by
  rcases move hs with ⟨hp, haside⟩ | hp | ⟨ht, hp⟩ | hp
  · cases SynchronizedBatched.move hp with
    | take item rx =>
      obtain ⟨hlock, htasks | ⟨batch, htasks⟩⟩ := tasks_body cfg { s.poller with
        core.rx := rx, core.taken := s.poller.core.taken ++ [item] } item
      · exact h.congr htasks hlock rfl rfl
      · exact h.spawn batch htasks hlock rfl rfl
    | push | ends | startSync => exact h.congr rfl rfl rfl rfl
    | ask | askSync =>
      obtain ⟨done, now, h⟩ := h
      exact ⟨done, now, h.ask _⟩
    | send _ c hc =>
      obtain ⟨batch, ev, evs, hi, rfl⟩ := BatchCore.sendTask_eq_some hc
      have hphase : (TaskStage.sending evs).phase = (TaskStage.sending (ev :: evs)).phase := rfl
      exact h.set hi hphase rfl rfl rfl rfl
    | _ => cases haside
  · exact h.begin hp
  · exact h.finish ht hp
  · cases SynchronizedBatched.move hp with
    | synced _ hsync => exact absurd hsync hpc

/-- The handler changes nothing for the poller. -/
theorem poller_step {l : PollerLabel M HandledLabel} (hs : s.step cfg f l = some s') :
    ∃ l', s.poller.step cfg l' = some s'.poller := by
  rcases move hs with ⟨hp, -⟩ | hp | ⟨-, hp⟩ | hp <;> exact ⟨_, hp⟩

theorem accepted_step {p p' : SynchronizedBatched M R E}
    {l : PollerLabel M (SynchronizedBatchedLabel R E)} (hs : p.step cfg l = some p') :
    p.core.accepted <+: p'.core.accepted := by
  rcases l with item | l
  · rw [((SynchronizedBatched.counted cfg).push p item p' hs).1]
    exact List.prefix_append _ _
  · have haccepted := ((SynchronizedBatched.counted cfg).run p (.inl l) p' hs).1
    exact haccepted ▸ List.prefix_rfl

/-- With messages and flushes alone the loop is never in a sync. -/
theorem pc_ne_syncing {p : SynchronizedBatched M R E} (h : SynchronizedBatched.Placed cfg p)
    {items : List (Request M)} (hitems : ∀ item ∈ items, item.cmd?.isSome = true)
    (hpre : p.core.accepted <+: items) : p.pc ≠ .syncing := by
  intro hpc
  obtain ⟨pre, htaken⟩ := h.sync (by rw [hpc]; rfl)
  have hmem : Request.action .sync ∈ items :=
    hpre.subset (by simp [BatchCore.accepted, htaken])
  exact absurd (hitems _ hmem) (by simp [Request.cmd?])

/-- Runs on messages and flushes fold the batches into the handler, in the order of the mutex. -/
theorem folds_of_reachable {items : List (Request M)}
    (hitems : ∀ item ∈ items, item.cmd?.isSome = true)
    (hr : (batchSynchronizedHandled cfg f h₀).Reachable s)
    (hpre : s.poller.core.accepted <+: items) :
    SynchronizedBatched.Placed cfg s.poller ∧ Folds f h₀ s := by
  induction hr with
  | start => exact ⟨SynchronizedBatched.placed_start, [], none, .start⟩
  | step hr hs ih =>
    obtain ⟨l', hl'⟩ := poller_step hs
    have hpre' := (accepted_step hl').trans hpre
    obtain ⟨hplaced, hfolds⟩ := ih hpre'
    exact ⟨SynchronizedBatched.placed_step hplaced hl',
      folds_step hfolds (pc_ne_syncing hplaced hitems hpre') hs⟩

end HandledBatches

/-- The items fall into two parts that each dispatch a batch. -/
def DispatchesTwice (batchSize : ℕ) (items : List (Request M)) : Prop :=
  ∃ pre post, items = pre ++ post ∧ Dispatches batchSize pre ∧ Dispatches batchSize post

theorem dispatchesTwice_iff {b : ℕ} {items : List (Request M)} :
    DispatchesTwice b items ↔ 2 ≤ (split b (items.filterMap Request.cmd?)).batches.length := by
  rw [two_le_length_batches_iff]
  constructor
  · rintro ⟨pre, post, rfl, hpre, hpost⟩
    exact ⟨_, _, List.filterMap_append, closes_iff_dispatches.2 hpre,
      closes_iff_dispatches.2 hpost⟩
  · rintro ⟨pre, post, hcmds, hpre, hpost⟩
    obtain ⟨pre, post, rfl, rfl, rfl⟩ := List.filterMap_eq_append_iff.1 hcmds
    exact ⟨pre, post, rfl, closes_iff_dispatches.1 hpre, closes_iff_dispatches.1 hpost⟩

namespace HandledBatches

variable {cfg : SynchronizedBatchedConfig} {f : BatchSynchronizedHandler M R E H} {h₀ : H}
  {s : HandledBatches M R E H}

/-- One task at most, so it is the first and the only one in the order. -/
theorem order_eq_range {calls : List (H → H)} {phases : List CallPhase} {lock : List Holder}
    {order done : List ℕ} {h : H} {now : Option ℕ}
    (hf : Folded h₀ calls phases lock order h done now) (hone : phases.length ≤ 1) :
    order = List.range order.length := by
  have hlt := hf.lt
  have hnodup := hf.nodup
  rcases order with _ | ⟨i, _ | ⟨j, order⟩⟩
  · rfl
  · have := hlt i (by simp)
    obtain rfl : i = 0 := by omega
    rfl
  · have hi := hlt i (by simp)
    have hj := hlt j (by simp)
    obtain rfl : i = j := by omega
    simp at hnodup

theorem Folds.handler (h : Folds f h₀ s) (hone : s.poller.core.tasks.length ≤ 1)
    (hover : ∀ c ∈ SynchronizedBatched.callView.calls s.poller, c.phase = .over) :
    s.handler = s.poller.core.batches.foldl (fun h b => (f.handle h b.msgs).1) h₀ := by
  obtain ⟨done, now, h⟩ := h
  have hnow : now = none := by
    rcases now with _ | i
    · rfl
    · obtain ⟨hi, -⟩ := h.holds i rfl
      rw [List.getElem?_map, Option.map_eq_some_iff] at hi
      obtain ⟨t, ht, hphase⟩ := hi
      have := hover t.call (List.mem_map_of_mem (List.mem_of_getElem? ht))
      simp [BatchTask.call, hphase] at this
  have horder : s.order = done := by simpa [hnow] using h.split
  have hrange := order_eq_range h (by simpa using hone)
  have hbegan := h.began
  rw [h.state, ← horder]
  unfold BatchCore.batches
  rcases htasks : s.poller.core.tasks with _ | ⟨t, _ | ⟨t', tasks⟩⟩
  · have hnil : s.order = [] := List.eq_nil_iff_forall_not_mem.2 fun i hi => by
      have := h.lt i hi
      simp [htasks] at this
    simp [hnil]
  · have hphase := hover t.call (List.mem_map_of_mem (by simp [htasks]))
    have hphase : t.stage.phase = .over := hphase
    have hmem : 0 ∈ s.order := (hbegan 0 .over (by simpa [htasks] using hphase)).2 (by simp)
    have hlen : s.order.length = 1 := by
      have hpos := List.length_pos_of_mem hmem
      have hlast : s.order.length - 1 ∈ List.range s.order.length := List.mem_range.2 (by omega)
      rw [← hrange] at hlast
      have := h.lt _ hlast
      simp only [htasks, List.length_map, List.length_singleton] at this
      omega
    rw [hrange, hlen]
    simp [callAt, calls, List.range_succ]
  · simp [htasks] at hone

/-- With messages and flushes alone, the batches spawned are the first ones of the items. -/
theorem length_tasks_le {items : List (Request M)} (h : SynchronizedBatched.Placed cfg s.poller)
    (hpre : s.poller.core.accepted <+: items) : s.poller.core.tasks.length
      ≤ (split cfg.batchSize (items.filterMap Request.cmd?)).batches.length := by
  obtain ⟨post, rfl⟩ := hpre
  have hlen := congrArg List.length h.splits.1
  simp only [BatchCore.batches, List.length_map] at hlen
  rw [hlen, BatchCore.accepted, List.append_assoc, List.filterMap_append, split_append,
    List.length_append]
  omega

variable (f h₀) in
theorem reachable_queue (hcfg : cfg.Starts) (items : List (Request M)) :
    (batchSynchronizedHandled cfg f h₀).Reachable
      ⟨⟨{ BatchCore.start with rx := items }, .recv, []⟩, h₀, []⟩ := by
  induction items using List.reverseRecOn with
  | nil =>
    have hstart : (start cfg h₀ : HandledBatches M R E H) = ⟨⟨.start, .recv, []⟩, h₀, []⟩ := by
      simp [start, SynchronizedBatched.start, hcfg]
    exact hstart ▸ .start
  | append_singleton items item ih => exact ih.step (l := .push item) rfl

theorem exists_taken (pre : List (Request M)) (hpre : ∀ item ∈ pre, item.cmd?.isSome = true)
    (hr : (batchSynchronizedHandled cfg f h₀).Reachable s)
    (hu : SynchronizedBatched.Unstarted s.poller) (hrx : s.poller.core.rx = pre) :
    ∃ s', (batchSynchronizedHandled cfg f h₀).Reachable s'
      ∧ SynchronizedBatched.Unstarted s'.poller ∧ s'.poller.core.rx = []
      ∧ s'.poller.core.taken = s.poller.core.taken ++ pre ∧ s'.order = s.order := by
  induction pre generalizing s with
  | nil => exact ⟨s, hr, hu, hrx, by simp, rfl⟩
  | cons item pre ih =>
    rw [List.forall_mem_cons] at hpre
    obtain ⟨hitem, hpre⟩ := hpre
    have hu' : SynchronizedBatched.Unstarted { s.poller with
        core.rx := pre, core.taken := s.poller.core.taken ++ [item] } :=
      ⟨hu.pc, hu.lock, hu.spawned⟩
    have hstep : s.poller.run cfg .recv = some _ := hu.step_recv hrx
    have hr' : (batchSynchronizedHandled cfg f h₀).Reachable { s with
        poller := SynchronizedBatched.body cfg { s.poller with
          core.rx := pre, core.taken := s.poller.core.taken ++ [item] } item } := by
      refine hr.step (l := .run .recv) ?_
      show (s.poller.run cfg .recv).map _ = _
      rw [hstep]
      rfl
    obtain ⟨s', hs', hu', hrx', htaken', horder'⟩ := ih hpre hr'
      (SynchronizedBatched.unstarted_body cfg hu' item (by rintro rfl; cases hitem)
        (by rintro rfl; cases hitem)) (SynchronizedBatched.rx_body cfg _ item)
    refine ⟨s', hs', hu', hrx', ?_, horder'⟩
    simp [htaken', SynchronizedBatched.taken_body]

variable (f h₀) in
/-- All the batches can be spawned with no task polled. -/
theorem exists_spawned (hcfg : cfg.Starts) {items : List (Request M)}
    (hitems : ∀ item ∈ items, item.cmd?.isSome = true) :
    ∃ s, (batchSynchronizedHandled cfg f h₀).Reachable s
      ∧ SynchronizedBatched.Unstarted s.poller ∧ s.poller.core.accepted = items ∧ s.order = []
      ∧ s.poller.core.tasks.length
        = (split cfg.batchSize (items.filterMap Request.cmd?)).batches.length := by
  obtain ⟨s, hr, hu, hrx, htaken, horder⟩ := exists_taken items hitems
    (reachable_queue f h₀ hcfg items) ⟨rfl, rfl, List.forall_mem_nil _⟩ rfl
  have htaken : s.poller.core.taken = items := htaken
  have haccepted : s.poller.core.accepted = items := by simp [BatchCore.accepted, hrx, htaken]
  obtain ⟨hplaced, -⟩ := folds_of_reachable hitems hr (haccepted ▸ List.prefix_rfl)
  have hlen := congrArg List.length hplaced.splits.1
  simp only [BatchCore.batches, List.length_map, htaken] at hlen
  exact ⟨s, hr, hu, haccepted, horder, hlen⟩

theorem dead_of_reachable (hcfg : ¬ cfg.Starts)
    (hr : (batchSynchronizedHandled cfg f h₀).Reachable s) : s.poller.Dead := by
  refine Lts.invariant (J := fun s => s.poller.Dead) (SynchronizedBatched.dead_start hcfg)
    (fun s l s' h hs => ?_) hr
  obtain ⟨l', hl'⟩ := poller_step hs
  exact SynchronizedBatched.dead_step h hl'

end HandledBatches

/-- The tasks get the mutex in the order of their batches, and the handler ends as the fold over
the batches in that order, in every run on the items. -/
def InQueueOrder (cfg : SynchronizedBatchedConfig) (R E : Type) (items : List (Request M)) : Prop :=
  ∀ (H : Type) (f : BatchSynchronizedHandler M R E H) (h₀ : H) (s : HandledBatches M R E H),
    (batchSynchronizedHandled cfg f h₀).Reachable s → s.poller.core.accepted <+: items →
    s.order = List.range s.order.length
    ∧ (s.poller.core.accepted = items → s.poller.core.rx = [] →
      (∀ c ∈ SynchronizedBatched.callView.calls s.poller, c.phase = .over) →
      s.handler = (split cfg.batchSize (items.filterMap Request.cmd?)).batches.foldl
        (fun h batch => (f.handle h (batch.map (·.2))).1) h₀)

/-- The run in which the task of the second batch is the first to ask. -/
theorem InQueueOrder.not_twice {cfg : SynchronizedBatchedConfig} (hcfg : cfg.Starts)
    {items : List (Request M)} (h : InQueueOrder cfg R E items)
    (hitems : ∀ item ∈ items, item.cmd?.isSome = true) :
    ¬ DispatchesTwice cfg.batchSize items := by
  intro htwice
  rw [dispatchesTwice_iff] at htwice
  let f : BatchSynchronizedHandler M R E Unit := ⟨fun _ _ => ((), .ok []), fun _ => ((), .ok ())⟩
  obtain ⟨s, hr, hu, haccepted, horder, hlen⟩ :=
    HandledBatches.exists_spawned f () hcfg hitems
  have hlt : 1 < s.poller.core.tasks.length := by omega
  have hi : s.poller.core.tasks[1]? = some ⟨s.poller.core.tasks[1].batch, .spawned⟩ := by
    rw [List.getElem?_eq_getElem hlt, ← hu.spawned _ (List.getElem_mem hlt)]
  have hask : s.poller.run cfg (.ask 1) = some { s.poller with lock := [.task 1] } := by
    simp [SynchronizedBatched.run, hi, hu.lock]
  have hstart : ({ s.poller with lock := [.task 1] } : SynchronizedBatched M R E).run cfg (.start 1)
      = some { s.poller with
        core := { s.poller.core with
          tasks := s.poller.core.tasks.set 1 ⟨s.poller.core.tasks[1].batch, .handling⟩
          handled := s.poller.core.handled ++ [s.poller.core.tasks[1].batch.msgs] }
        lock := [.task 1] } := by
    simp [SynchronizedBatched.run, BatchCore.startTask, hi]
  have hr₁ : (batchSynchronizedHandled cfg f ()).Reachable
      { s with poller := { s.poller with lock := [.task 1] } } := by
    refine hr.step (l := .run (.ask 1)) ?_
    show (s.poller.run cfg (.ask 1)).map _ = _
    rw [hask]
    rfl
  have hstep : (batchSynchronizedHandled cfg f ()).step
      { s with poller := { s.poller with lock := [.task 1] } } (.run (.start 1)) = some _ :=
    Option.map_eq_some_iff.2 ⟨_, hstart, rfl⟩
  have := (h Unit f () _ (hr₁.step hstep) (by
    rw [← haccepted]
    exact List.prefix_rfl)).1
  simp [horder, List.range_succ] at this

/-- A synchronized batched poller hands over messages and flushes in the order of the queue,
whatever the scheduling, exactly when they do not dispatch twice, or when it does not get to its
loop. -/
theorem synchronized_batched_in_order_iff (M R E : Type) (cfg : SynchronizedBatchedConfig)
    (items : List (Request M)) (hitems : ∀ item ∈ items, item.cmd?.isSome = true) :
    InQueueOrder cfg R E items ↔ ¬ cfg.Starts ∨ ¬ DispatchesTwice cfg.batchSize items := by
  refine ⟨fun h => ?_, fun h H f h₀ s hr hpre => ?_⟩
  · by_cases hcfg : cfg.Starts
    · exact .inr (h.not_twice hcfg hitems)
    · exact .inl hcfg
  obtain ⟨hplaced, hfolds⟩ := HandledBatches.folds_of_reachable hitems hr hpre
  have hone : s.poller.core.tasks.length ≤ 1 := by
    rcases h with hcfg | h
    · rw [(HandledBatches.dead_of_reachable hcfg hr).core]
      exact Nat.zero_le 1
    · rw [dispatchesTwice_iff] at h
      have := HandledBatches.length_tasks_le hplaced hpre
      omega
  constructor
  · obtain ⟨done, now, hf⟩ := hfolds
    exact HandledBatches.order_eq_range hf (by simpa using hone)
  · intro haccepted hrx hover
    have htaken : s.poller.core.taken = items := by
      simpa [BatchCore.accepted, hrx] using haccepted
    rw [hfolds.handler hone hover, hplaced.splits.1, htaken, List.foldl_map]
    rfl

/-- Two messages in batches of three, and their `Flush`, make one batch. -/
theorem one_batch_in_order : InQueueOrder ⟨3, 8⟩ Unit Unit
    [.request 1 (10 : ℕ) false, .request 2 20 true, .action .flush] := by
  refine (synchronized_batched_in_order_iff ℕ Unit Unit ⟨3, 8⟩ _ (by decide)).2 (.inr ?_)
  rw [dispatchesTwice_iff]
  decide

/-- Two messages in batches of one, whose tasks ask for the mutex the other way round, and a handler
that keeps the messages in the order it sees them. -/
theorem batches_out_of_order :
    ¬ InQueueOrder ⟨1, 8⟩ Unit Unit [.request 1 (10 : ℕ) false, .request 2 20 false] := by
  intro h
  let f : BatchSynchronizedHandler ℕ Unit Unit (List ℕ) :=
    ⟨fun h msgs => (h ++ msgs, .ok []), fun h => (h, .ok ())⟩
  have hr : (batchSynchronizedHandled ⟨1, 8⟩ f []).run
      [.push (.request 1 10 false), .push (.request 2 20 false), .run .recv, .run .recv,
        .run (.ask 1), .run (.ask 0), .run (.start 1), .run (.finish 1), .run (.start 0),
        .run (.finish 0)]
      = some ⟨⟨⟨[], false, [], [],
        [⟨⟨[(1, false)], [10]⟩, .sending [.response 1 (.error .noResponse)]⟩,
          ⟨⟨[(2, false)], [20]⟩, .sending [.response 2 (.error .noResponse)]⟩],
        [], [.request 1 10 false, .request 2 20 false], [[20], [10]]⟩, .recv, []⟩,
        [20, 10], [1, 0]⟩ := rfl
  have := (h (List ℕ) f [] _ (Lts.reachable_of_run hr) List.prefix_rfl).2 rfl rfl (by
    simp [SynchronizedBatched.callView, BatchTask.call, TaskStage.phase])
  exact absurd this (by decide)

end MessageBus
