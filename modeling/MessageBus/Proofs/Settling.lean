import MessageBus.Lib.Progress
import MessageBus.Proofs.Closing
import MessageBus.Proofs.Exclusion
import Mathlib.Algebra.BigOperators.Group.Finset.Basic
import Mathlib.Algebra.Order.BigOperators.Group.Finset

/-!
# An unbatched poller left alone

With handlers that come to an end, a poller to which nothing more is pushed takes only so many
steps: each of them takes from its `work`. Where none is left, its tasks are over, and its loop
waits for an item that is not there or is over itself. By then each item but `Close` has its event,
a message whose handler panicked excepted; where the loop has panicked, each it took but the last.
Permits go back, so that the loop never waits for good, unless there is none to begin with.
-/

namespace MessageBus

variable {M R E : Type}

/-- The steps a poller and its tasks take by themselves. -/
def PollerLabel.own {ℓ : Type} : PollerLabel M ℓ → Bool
  | .push _ => false
  | .run _ => true

theorem Request.mark?_request (mid : UInt64) (msg : M) (req : Bool) :
    (Request.request mid msg req).mark? = some (.response mid) := rfl

theorem Request.mark?_action (a : Action) : (Request.action a : Request M).mark? =
    match a with
    | .init _ => some .ready
    | .flush => some .flushed
    | .sync => some .synchronized
    | _ => none := by
  cases a <;> rfl

/-- The steps a task has still to take. -/
def CallStage.work : CallStage R E → ℕ
  | .spawned => 3
  | .handling => 2
  | .returned _ => 1
  | .sent _ | .panicked => 0

namespace BufferUnordered

variable {cfg : BufferUnorderedConfig} {s s' : BufferUnordered M R E}

section Work

/-- The steps an item takes, its task's with them. -/
def itemWork : Request M → ℕ
  | .request _ _ _ => 5
  | .action .sync => 3
  | .action .flush => 2
  | .action _ => 1

def Pc.work : Pc M → ℕ
  | .recv => 1
  | .acquire _ _ => 5
  | .flushAll => 2
  | .syncAll => 3
  | .syncing => 2
  | .ended | .aborted => 0

def work (s : BufferUnordered M R E) : ℕ :=
  (s.rx.map itemWork).sum + s.pc.work + (s.tasks.map fun t => t.stage.work).sum

theorem work_body (hpc : s.pc = .recv) {item : Request M} {rx : List (Request M)}
    (hrx : s.rx = item :: rx) :
    (body { s with rx := rx, taken := s.taken ++ [item] } item).work < s.work := by
  have hs : s.work = itemWork item + (rx.map itemWork).sum + 1
      + (s.tasks.map fun t => t.stage.work).sum := by
    rw [work, hrx, hpc]
    rfl
  rcases item with a | ⟨mid, msg, req⟩
  · rcases a with id | _ | _ | _ | _ <;>
      simp only [body, emit, work, hpc, Pc.work, itemWork] at hs ⊢ <;> omega
  · simp only [body, work, hpc, Pc.work, itemWork] at hs ⊢
    omega

theorem work_set {i : ℕ} {mid : UInt64} {msg : M} {stage : CallStage R E}
    (hi : s.tasks[i]? = some ⟨mid, msg, stage⟩) (stage' : CallStage R E) :
    ((s.tasks.set i ⟨mid, msg, stage'⟩).map fun t => t.stage.work).sum + stage.work
      = (s.tasks.map fun t => t.stage.work).sum + stage'.work :=
  Pool.sum_map_set_add (fun t => t.stage.work) ⟨mid, msg, stage'⟩ hi

/-- Every step of its own takes from the work. -/
theorem work_run {l : Label R E} (hs : s.step cfg (.run l) = some s') : s'.work < s.work := by
  cases move hs with
  | take item rx hpc hrx => exact work_body hpc hrx
  | ends hpc | flushed hpc | sync hpc | synced _ hpc | syncPanic hpc =>
    simp only [work, emit, hpc, Pc.work]
    omega
  | dispatch mid msg hpc =>
    simp only [work, hpc, Pc.work, List.map_append, List.sum_append, List.map_cons, List.map_nil,
      List.sum_singleton, CallStage.work]
    omega
  | start i mid msg hi =>
    have := work_set hi .handling
    simp only [work, CallStage.work] at this ⊢
    omega
  | finish i mid msg resp hi =>
    have := work_set hi (.returned resp)
    simp only [work, CallStage.work] at this ⊢
    omega
  | panic i mid msg hi =>
    have := work_set hi .panicked
    simp only [work, CallStage.work] at this ⊢
    omega
  | send i mid msg resp hi =>
    have := work_set hi (.sent resp)
    simp only [work, emit, CallStage.work] at this ⊢
    omega

end Work

section Rest

/-- What a task has still to answer, for good where its handler panicked. -/
def owes? (t : CallTask M R E) : Option Mark :=
  match t.stage with
  | .sent _ => none
  | _ => some (.response t.mid)

/-- What the item in hand is still to be answered by. -/
def Pc.owes : Pc M → List Mark
  | .acquire mid _ => [.response mid]
  | .flushAll => [.flushed]
  | .syncAll | .syncing => [.synchronized]
  | _ => []

/-- The loop is between two items, or past the last. -/
def Pc.idle : Pc M → Bool
  | .recv | .ended => true
  | _ => false

/-- Each item taken is answered, with a task or in hand; and the loop ends with its queue. A panic
leaves the item in hand, the last one taken, unanswered. -/
structure Tracked (s : BufferUnordered M R E) : Prop where
  balanced : s.pc ≠ .aborted → ∀ m, (s.stx.filterMap Event.mark?).count m
    + (s.tasks.filterMap owes?).count m + s.pc.owes.count m
      = (s.taken.filterMap Request.mark?).count m
  held : s.pc.idle = false → ∀ m, (s.stx.filterMap Event.mark?).count m
    + (s.tasks.filterMap owes?).count m = (s.taken.dropLast.filterMap Request.mark?).count m
  drained : s.pc = .ended → s.rx = [] ∧ s.closed = true
  closing : Request.action .close ∈ s.taken → s.closed = true

theorem Tracked.start : Tracked (start cfg : BufferUnordered M R E) := by
  unfold BufferUnordered.start
  split_ifs
  · exact ⟨fun _ _ => rfl, by rintro ⟨⟩, by rintro ⟨⟩, by simp⟩
  · exact ⟨fun hp => absurd rfl hp, fun _ _ => rfl, by rintro ⟨⟩, by simp⟩

theorem count_owes_set {i : ℕ} {mid : UInt64} {msg : M} {stage : CallStage R E}
    (hi : s.tasks[i]? = some ⟨mid, msg, stage⟩) (stage' : CallStage R E) (m : Mark) :
    ((s.tasks.set i ⟨mid, msg, stage'⟩).filterMap owes?).count m
        + (owes? (⟨mid, msg, stage⟩ : CallTask M R E)).toList.count m
      = (s.tasks.filterMap owes?).count m
        + (owes? (⟨mid, msg, stage'⟩ : CallTask M R E)).toList.count m := by
  have := (Pool.perm_filterMap_set owes? ⟨mid, msg, stage'⟩ hi).count_eq m
  simpa only [List.count_append] using this

/-- A task moves on without sending. -/
theorem Tracked.setTask (h : Tracked s) {i : ℕ} {mid : UInt64} {msg : M} {stage : CallStage R E}
    (hi : s.tasks[i]? = some ⟨mid, msg, stage⟩) (stage' : CallStage R E)
    (ho : owes? (⟨mid, msg, stage'⟩ : CallTask M R E) = owes? ⟨mid, msg, stage⟩) (permits : ℕ) :
    Tracked { s with permits := permits, tasks := s.tasks.set i ⟨mid, msg, stage'⟩ } := by
  have hset : ∀ m, ((s.tasks.set i ⟨mid, msg, stage'⟩).filterMap owes?).count m
      = (s.tasks.filterMap owes?).count m := by
    intro m
    have := count_owes_set hi stage' m
    rw [ho] at this
    omega
  refine ⟨fun hp m => ?_, fun hp m => ?_, h.drained, h.closing⟩
  · rw [hset]
    exact h.balanced hp m
  · rw [hset]
    exact h.held hp m

theorem tracked_body (h : Tracked s) (hpc : s.pc = .recv) (item : Request M)
    (rx : List (Request M)) :
    Tracked (body { s with rx := rx, taken := s.taken ++ [item] } item) := by
  have hbal := h.balanced (by rw [hpc]; rintro ⟨⟩)
  have hne : s.pc ≠ .ended := by
    rw [hpc]
    rintro ⟨⟩
  rw [hpc] at hbal
  constructor
  · intro hp m
    have := hbal m
    rcases item with a | ⟨mid, msg, req⟩
    · cases a <;>
        simp only [body, emit, hpc, Pc.owes, List.filterMap_append, List.count_append,
          List.count_nil, List.filterMap_cons, Event.mark?, Request.mark?_action,
          List.filterMap_nil] at this hp ⊢ <;>
        omega
    · simp only [body, Pc.owes, List.filterMap_append, List.count_append, List.count_nil,
        List.filterMap_cons, Request.mark?_request, List.filterMap_nil] at this ⊢
      omega
  · intro hp m
    have := hbal m
    rcases item with a | ⟨mid, msg, req⟩
    · cases a <;>
        simp only [body, emit, hpc, Pc.idle, Bool.true_eq_false, Pc.owes, List.count_nil,
          List.dropLast_concat] at this hp ⊢ <;>
        omega
    · simp only [body, Pc.owes, List.count_nil, List.dropLast_concat] at this ⊢
      omega
  · intro hp
    rcases item with a | ⟨mid, msg, req⟩
    · cases a <;> first | exact absurd hp hne | cases hp
    · cases hp
  · intro hmem
    have hmem : Request.action .close ∈ s.taken ++ [item] := by
      rcases item with a | ⟨mid, msg, req⟩
      · cases a <;> exact hmem
      · exact hmem
    rcases List.mem_append.1 hmem with hmem | hmem
    · have hclosed := h.closing hmem
      rcases item with a | ⟨mid, msg, req⟩
      · cases a <;> first | exact hclosed | rfl
      · exact hclosed
    · rw [← List.mem_singleton.1 hmem]
      rfl

theorem tracked_step {l : PollerLabel M (Label R E)} (h : Tracked s)
    (hs : s.step cfg l = some s') : Tracked s' := by
  obtain ⟨hbal, hheld, hdrained, hclosing⟩ := h
  cases move hs with
  | push item hclosed =>
    refine ⟨hbal, hheld, fun hp => ?_, hclosing⟩
    rw [(hdrained hp).2] at hclosed
    cases hclosed
  | take item rx hpc => exact tracked_body ⟨hbal, hheld, hdrained, hclosing⟩ hpc item rx
  | ends hpc hrx hclosed =>
    rw [hpc] at hbal
    exact ⟨fun _ => hbal (by rintro ⟨⟩), by rintro ⟨⟩, fun _ => ⟨hrx, hclosed⟩, hclosing⟩
  | dispatch mid msg hpc =>
    rw [hpc] at hbal
    refine ⟨fun _ m => ?_, by rintro ⟨⟩, by rintro ⟨⟩, hclosing⟩
    have := hbal (by rintro ⟨⟩) m
    simp only [Pc.owes, List.filterMap_append, List.count_append, List.filterMap_cons, owes?,
      List.filterMap_nil, List.count_nil] at this ⊢
    omega
  | flushed hpc =>
    rw [hpc] at hbal
    refine ⟨fun _ m => ?_, by rintro ⟨⟩, by rintro ⟨⟩, hclosing⟩
    have := hbal (by rintro ⟨⟩) m
    simp only [emit, Pc.owes, List.filterMap_append, List.count_append, List.filterMap_cons,
      Event.mark?, List.filterMap_nil, List.count_nil] at this ⊢
    omega
  | sync hpc =>
    rw [hpc] at hbal hheld
    exact ⟨fun _ => hbal (by rintro ⟨⟩), fun _ => hheld rfl, by rintro ⟨⟩, hclosing⟩
  | synced resp hpc =>
    rw [hpc] at hbal
    refine ⟨fun _ m => ?_, by rintro ⟨⟩, by rintro ⟨⟩, hclosing⟩
    have := hbal (by rintro ⟨⟩) m
    simp only [emit, Pc.owes, List.filterMap_append, List.count_append, List.filterMap_cons,
      Event.mark?, List.filterMap_nil, List.count_nil] at this ⊢
    omega
  | syncPanic hpc =>
    rw [hpc] at hheld
    exact ⟨fun hp => absurd rfl hp, fun _ => hheld rfl, by rintro ⟨⟩, fun _ => rfl⟩
  | start i mid msg hi =>
    exact Tracked.setTask ⟨hbal, hheld, hdrained, hclosing⟩ hi .handling rfl s.permits
  | finish i mid msg resp hi =>
    exact Tracked.setTask ⟨hbal, hheld, hdrained, hclosing⟩ hi (.returned resp) rfl (s.permits + 1)
  | panic i mid msg hi =>
    exact Tracked.setTask ⟨hbal, hheld, hdrained, hclosing⟩ hi .panicked rfl (s.permits + 1)
  | send i mid msg resp hi =>
    -- What the stream gains the task no longer owes.
    have hsent : ∀ m, ((s.stx ++ [Event.response mid (resp.mapError .other)]).filterMap
        Event.mark?).count m + ((s.tasks.set i ⟨mid, msg, .sent resp⟩).filterMap owes?).count m
        = (s.stx.filterMap Event.mark?).count m + (s.tasks.filterMap owes?).count m := by
      intro m
      have hset := count_owes_set hi (.sent resp) m
      simp only [List.filterMap_append, List.count_append, List.filterMap_cons, Event.mark?,
        List.filterMap_nil, owes?, Option.toList_some, Option.toList_none, List.count_nil]
        at hset ⊢
      omega
    refine ⟨fun hp m => ?_, fun hp m => ?_, hdrained, hclosing⟩
    · simp only [emit]
      rw [hsent]
      exact hbal hp m
    · simp only [emit]
      rw [hsent]
      exact hheld hp m

/-- At rest: the tasks are over, and the loop waits for an item that is not there or is over. -/
structure Rested (s : BufferUnordered M R E) : Prop where
  tasks : ∀ t ∈ s.tasks, t.stage.gone = true
  loop : s.rx = [] ∧ (s.pc = .recv ∧ s.closed = false ∨ s.pc = .ended) ∨ s.pc = .aborted

/-- The messages whose handler panicked. -/
def lost (s : BufferUnordered M R E) : List Mark :=
  s.tasks.filterMap fun t =>
    match t.stage with
    | .panicked => some (.response t.mid)
    | _ => none

/-- Each item has the one event that answers it, the messages whose handler panicked excepted: each
of the queue, or, where the loop itself panicked, each it took before the one it panicked at. -/
structure Answered (s : BufferUnordered M R E) : Prop where
  all : s.pc ≠ .aborted →
    (s.stx.filterMap Event.mark? ++ s.lost).Perm (s.accepted.filterMap Request.mark?)
  before : s.pc = .aborted →
    (s.stx.filterMap Event.mark? ++ s.lost).Perm (s.taken.dropLast.filterMap Request.mark?)

theorem stage_of_quiet {i : ℕ} {t : CallTask M R E} (hi : s.tasks[i]? = some t)
    (hq : (bufferUnorderedPoller M R E cfg).Quiet PollerLabel.own s) : t.stage.gone = true := by
  obtain ⟨mid, msg, stage⟩ := t
  have hno : ∀ l, s.run cfg l = none := fun l => hq (.run l) rfl
  cases stage with
  | spawned =>
    have := hno (.start i)
    simp [run, hi] at this
  | handling =>
    have := hno (.panic i)
    simp [run, hi] at this
  | returned resp =>
    have := hno (.send i)
    simp [run, hi] at this
  | sent | panicked => rfl

theorem rested_of_quiet (hpos : 1 ≤ cfg.maxParallel) (hg : Guarded cfg s) (h : Tracked s)
    (hq : (bufferUnorderedPoller M R E cfg).Quiet PollerLabel.own s) : Rested s := by
  have hno : ∀ l, s.run cfg l = none := fun l => hq (.run l) rfl
  have htasks : ∀ t ∈ s.tasks, t.stage.gone = true := by
    intro t ht
    obtain ⟨i, hi⟩ := List.getElem?_of_mem ht
    exact stage_of_quiet hi hq
  have hidle : s.tasks.countP (fun t => t.call.busy) = 0 := by
    refine List.countP_eq_zero.2 fun t ht => ?_
    have := htasks t ht
    obtain ⟨mid, msg, stage⟩ := t
    cases stage <;> simp_all [CallStage.gone, CallTask.call, HandlerCall.busy, CallStage.phase]
  -- With no call left the permits are all there, but for those of a sync.
  have hfree : s.pc.isSyncing = false → s.permits = cfg.maxParallel := by
    intro hsync
    have hshares := hg.shares
    unfold Semaphore.Shares at hshares
    simpa [hidle, Pc.locks, hsync] using hshares
  have hall : allPermits cfg ≤ cfg.maxParallel := Nat.mod_le _ _
  have hrecv := hno .recv
  have hacquire := hno .acquire
  refine ⟨htasks, ?_⟩
  rcases hpc : s.pc with _ | ⟨mid, msg⟩ | _ | _ | _ | _ | _
  · rcases hrx : s.rx with _ | ⟨item, rx⟩
    · simpa [run, recv, hpc, hrx] using hrecv
    · simp [run, recv, hpc, hrx] at hrecv
  · have := hfree (by rw [hpc]; rfl)
    simp [run, acquire, hpc] at hacquire
    omega
  · have := hfree (by rw [hpc]; rfl)
    simp [run, acquire, hpc] at hacquire
    omega
  · have := hfree (by rw [hpc]; rfl)
    simp [run, acquire, hpc] at hacquire
    omega
  · have := hno .syncPanic
    simp [run, hpc] at this
  · simp [(h.drained hpc).1]
  · simp

theorem Rested.answered (hr : Rested s) (h : Tracked s) : Answered s := by
  have hlost : s.tasks.filterMap owes? = s.lost := by
    refine List.filterMap_congr fun t ht => ?_
    have := hr.tasks t ht
    obtain ⟨mid, msg, stage⟩ := t
    cases stage <;> first | rfl | cases this
  constructor
  · intro hp
    obtain ⟨hrx, hpc⟩ := hr.loop.resolve_right hp
    have howes : s.pc.owes = [] := by
      rcases hpc with ⟨hpc, -⟩ | hpc <;> rw [hpc] <;> rfl
    refine List.perm_iff_count.2 fun m => ?_
    have := h.balanced hp m
    rw [howes, hlost] at this
    simpa [accepted, hrx] using this
  · intro hp
    refine List.perm_iff_count.2 fun m => ?_
    have := h.held (by rw [hp]; rfl) m
    rw [hlost] at this
    simpa using this

/-- What every reachable state keeps. -/
theorem tracked_of_reachable (h : (bufferUnorderedPoller M R E cfg).Reachable s) :
    Guarded cfg s ∧ Tracked s := by
  refine Lts.invariant (J := fun s => Guarded cfg s ∧ Tracked s) ⟨guarded_start, .start⟩ ?_ h
  exact fun s l s' h hs => ⟨guarded_step h.1 hs, tracked_step h.2 hs⟩

theorem settles (hpos : 1 ≤ cfg.maxParallel) (h : (bufferUnorderedPoller M R E cfg).Reachable s) :
    (bufferUnorderedPoller M R E cfg).Settles PollerLabel.own s.work
      (fun s => Rested s ∧ Answered s) s := by
  refine Lts.settles_of_work (J := fun s => Guarded cfg s ∧ Tracked s) ?_ ?_
    (tracked_of_reachable h)
  · rintro s (item | l) s' ⟨hg, ht⟩ hown hs
    · cases hown
    · have hs : s.step cfg (.run l) = some s' := hs
      exact ⟨⟨guarded_step hg hs, tracked_step ht hs⟩, work_run hs⟩
  · intro s ⟨hg, ht⟩ hq
    have hr := rested_of_quiet hpos hg ht hq
    exact ⟨hr, hr.answered ht⟩

end Rest

/-- With no permit there is, the first message keeps the loop for good. -/
theorem stuck (hzero : cfg.maxParallel = 0) (m : M) :
    ∃ s, (bufferUnorderedPoller M R E cfg).Reachable s
      ∧ (bufferUnorderedPoller M R E cfg).Quiet PollerLabel.own s ∧ ¬ Rested s := by
  have hr : (bufferUnorderedPoller M R E cfg).run [.push (.request 1 m false), .run .recv]
      = some ⟨[], false, .acquire 1 m, 0, [], [], [.request 1 m false]⟩ := by
    obtain ⟨n⟩ := cfg
    obtain rfl : n = 0 := hzero
    rfl
  refine ⟨_, Lts.reachable_of_run hr, ?_, ?_⟩
  · rintro (item | l) hown
    · cases hown
    · cases l <;> rfl
  · intro hrest
    rcases hrest.loop with ⟨-, ⟨hpc, -⟩ | hpc⟩ | hpc <;> cases hpc

end BufferUnordered

section Synchronized

namespace Subscription

variable {H : Type} {c c' : Subscription M R E H}

/-- The steps an item takes. -/
def itemWork : Request M → ℕ
  | .request _ _ _ | .action .sync => 4
  | .action _ => 1

def Pc.work : Pc M R E H → ℕ
  | .calling _ _ | .syncCalling => 4
  | .handling _ _ _ | .syncing _ => 3
  | .returned _ _ | .synced _ => 2
  | .recv => 1
  | .ended | .aborted => 0

def work (c : Subscription M R E H) : ℕ := (c.rx.map itemWork).sum + c.pc.work

theorem work_body (hpc : c.pc = .recv) {item : Request M} {rx : List (Request M)}
    (hrx : c.rx = item :: rx) :
    (body { c with rx := rx, taken := c.taken ++ [item] } item).work < c.work := by
  have hc : c.work = itemWork item + (rx.map itemWork).sum + 1 := by
    rw [work, hrx, hpc]
    rfl
  rcases item with a | ⟨mid, msg, req⟩
  · rcases a with id | _ | _ | _ | _ <;>
      simp only [body, emit, work, hpc, Pc.work, itemWork] at hc ⊢ <;> omega
  · simp only [body, work, Pc.work, itemWork] at hc ⊢
    omega

theorem work_endCall {pc : Option (Pc M R E H)} (hpc : c.pc.work = 3)
    (h : ∀ pc' ∈ pc, pc'.work = 2) : (c.endCall pc).work < c.work := by
  have hc : c.work = (c.rx.map itemWork).sum + 3 := by rw [work, hpc]
  rcases pc with _ | pc
  · have : (c.endCall none).work = (c.rx.map itemWork).sum := rfl
    omega
  · have : (c.endCall (some pc)).work = (c.rx.map itemWork).sum + pc.work := rfl
    have := h pc rfl
    omega

/-- The loop ends with its queue, and `Close` closes the queue. -/
structure Tracked (c : Subscription M R E H) : Prop where
  drained : c.pc = .ended → c.rx = [] ∧ c.closed = true
  closing : Request.action .close ∈ c.taken → c.closed = true

theorem tracked_body (h : c.Tracked) (hpc : c.pc = .recv) (item : Request M)
    (rx : List (Request M)) :
    (body { c with rx := rx, taken := c.taken ++ [item] } item).Tracked := by
  have hne : c.pc ≠ .ended := by
    rw [hpc]
    rintro ⟨⟩
  constructor
  · intro hp
    rcases item with a | ⟨mid, msg, req⟩
    · cases a <;> first | exact absurd hp hne | cases hp
    · cases hp
  · intro hmem
    have hmem : Request.action .close ∈ c.taken ++ [item] := by
      rcases item with a | ⟨mid, msg, req⟩
      · cases a <;> exact hmem
      · exact hmem
    rcases List.mem_append.1 hmem with hmem | hmem
    · have hclosed := h.closing hmem
      rcases item with a | ⟨mid, msg, req⟩
      · cases a <;> first | exact hclosed | rfl
      · exact hclosed
    · rw [← List.mem_singleton.1 hmem]
      rfl

/-- At rest the loop waits for an item that is not there, or is over. -/
def Rested (c : Subscription M R E H) : Prop :=
  c.rx = [] ∧ (c.pc = .recv ∧ c.closed = false ∨ c.pc = .ended) ∨ c.pc = .aborted

/-- The items are answered in order: those of the queue, or, where the loop panicked, those it took
before the one it panicked at. -/
structure Answered (c : Subscription M R E H) : Prop where
  all : c.pc ≠ .aborted → c.stx.filterMap Event.mark? = c.accepted.filterMap Request.mark?
  before : c.pc = .aborted → c.stx.filterMap Event.mark? = c.taken.dropLast.filterMap Request.mark?

theorem Rested.answered (hr : c.Rested) (h : c.InOrder) : c.Answered := by
  refine ⟨fun hp => ?_, fun hp => h.held (by rw [hp]; rfl)⟩
  have howed := h.owed hp
  obtain ⟨hrx, hpc⟩ := hr.resolve_right hp
  rcases hpc with ⟨hpc, -⟩ | hpc <;> rw [hpc] at howed <;>
    simpa [accepted, hrx, Pc.owes] using howed

end Subscription

/-- The steps the subscriptions take by themselves. -/
def ItemLabel.own {ι : Type} {M : ι → Type} : ItemLabel M → Bool
  | .push _ _ => false
  | _ => true

namespace SynchronizedItem

variable {ι H : Type} {M R E : ι → Type} {f : SynchronizedHandler M R E H} {h₀ : H}
  {s s' : SynchronizedItem M R E H} {l : ItemLabel M}

def work [Fintype ι] (s : SynchronizedItem M R E H) : ℕ := ∑ i, (s.subs i).work

variable [DecidableEq ι]

theorem work_set [Fintype ι] {i : ι} {c : Subscription (M i) (R i) (E i) H}
    (hc : c.work < (s.subs i).work) : (s.set i c).work < s.work := by
  refine Finset.sum_lt_sum (fun j _ => ?_) ⟨i, Finset.mem_univ i, ?_⟩
  · by_cases hj : j = i
    · subst hj
      rw [subs_set_self]
      omega
    · rw [subs_set_ne hj]
  · rw [subs_set_self]
    exact hc

/-- Every step of its own takes from the work. -/
theorem work_step [Fintype ι] (hl : l.own = true) (hs : s.step f l = some s') :
    s'.work < s.work := by
  cases move hs with
  | push i item => cases hl
  | take i item rx hpc hrx => exact work_set (Subscription.work_body hpc hrx)
  | ends i hpc | call i _ _ _ hpc | callSync i _ hpc | respond i _ _ hpc | report i _ hpc =>
    refine work_set ?_
    simp only [Subscription.work, Subscription.emit, hpc, Subscription.Pc.work]
    omega
  | handled i mid msg seen hpc =>
    refine work_set (Subscription.work_endCall (by rw [hpc]; rfl) fun pc' hpc' => ?_)
    obtain ⟨resp, -, rfl⟩ := Option.map_eq_some_iff.1 hpc'
    rfl
  | synced i seen hpc =>
    refine work_set (Subscription.work_endCall (by rw [hpc]; rfl) fun pc' hpc' => ?_)
    obtain ⟨resp, -, rfl⟩ := Option.map_eq_some_iff.1 hpc'
    rfl

/-- Whoever has the mutex is in a call, and the subscriptions end with their queues. -/
structure Kept (s : SynchronizedItem M R E H) : Prop where
  held : ∀ i, s.lock = some i → (s.subs i).pc.inCall = true
  tracked : ∀ i, (s.subs i).Tracked

/-- A subscription moves on outside its calls. -/
theorem Kept.set (h : Kept s) {i : ι} {c : Subscription (M i) (R i) (E i) H}
    (hpc : c.pc = (s.subs i).pc ∨ (s.subs i).pc.inCall = false) (hc : c.Tracked) :
    Kept (s.set i c) := by
  refine ⟨?_, forall_set (J := fun _ c => c.Tracked) h.tracked hc⟩
  refine forall_set (J := fun i c => s.lock = some i → c.pc.inCall = true) h.held fun hlock => ?_
  have hin := h.held i hlock
  rcases hpc with hpc | hpc
  · rwa [hpc]
  · rw [hpc] at hin
    cases hin

/-- A subscription calls the handler, or is back from it. -/
theorem Kept.setLock (h : Kept s) {i : ι} {c : Subscription (M i) (R i) (E i) H} (lock : Option ι)
    (hlock : ∀ j, lock = some j → j = i ∧ c.pc.inCall = true) (hc : c.Tracked) (h' : H)
    (calls : List (ItemCall M)) :
    Kept { s.set i c with lock := lock, handler := h', calls := calls } := by
  refine ⟨fun j hj => ?_, forall_set (J := fun _ c => c.Tracked) h.tracked hc⟩
  obtain ⟨rfl, hin⟩ := hlock j hj
  rwa [← subs_set_self (s := s) j c] at hin

theorem kept_step (h : Kept s) (hs : s.step f l = some s') : Kept s' := by
  have hend : ∀ i (pc : Option (Subscription.Pc (M i) (R i) (E i) H)),
      (∀ pc' ∈ pc, pc' ≠ .ended) → ((s.subs i).endCall pc).Tracked := by
    intro i pc hpc
    rcases pc with _ | pc
    · exact ⟨by rintro ⟨⟩, fun _ => rfl⟩
    · exact ⟨fun hp => absurd hp (hpc pc rfl), (h.tracked i).closing⟩
  cases move hs with
  | push i item hclosed =>
    refine h.set (.inl rfl) ⟨fun hp => ?_, (h.tracked i).closing⟩
    rw [((h.tracked i).drained hp).2] at hclosed
    cases hclosed
  | take i item rx hpc =>
    exact h.set (.inr (by rw [hpc]; rfl)) (Subscription.tracked_body (h.tracked i) hpc item rx)
  | ends i hpc hrx hclosed =>
    exact h.set (.inr (by rw [hpc]; rfl)) ⟨fun _ => ⟨hrx, hclosed⟩, (h.tracked i).closing⟩
  | call i mid msg hlock hpc | callSync i hlock hpc =>
    refine h.setLock (some i) (fun j hj => ⟨(Option.some.inj hj).symm, rfl⟩) ?_ _ _
    exact ⟨by rintro ⟨⟩, (h.tracked i).closing⟩
  | handled i mid msg seen hpc | synced i seen hpc =>
    refine h.setLock none (by rintro _ ⟨⟩) (hend i _ fun pc' hpc' => ?_) _ _
    obtain ⟨resp, -, rfl⟩ := Option.map_eq_some_iff.1 hpc'
    rintro ⟨⟩
  | respond i mid resp hpc | report i resp hpc =>
    exact h.set (.inr (by rw [hpc]; rfl)) ⟨by rintro ⟨⟩, (h.tracked i).closing⟩

theorem kept_of_reachable (h : (synchronizedItem f h₀).Reachable s) :
    Kept s ∧ ∀ i, (s.subs i).InOrder := by
  refine Lts.invariant (J := fun s => Kept s ∧ ∀ i, (s.subs i).InOrder)
    ⟨⟨by rintro _ ⟨⟩, fun i => ⟨by rintro ⟨⟩, by rintro ⟨⟩⟩⟩, fun i => .start⟩ ?_ h
  exact fun s l s' h hs => ⟨kept_step h.1 hs, inOrder_step h.2 hs⟩

/-- The mutex is free, and so nobody waits for it. -/
theorem rested_of_quiet (h : Kept s) (hq : (synchronizedItem f h₀).Quiet ItemLabel.own s) :
    ∀ i, (s.subs i).Rested := by
  have hno : ∀ l : ItemLabel M, l.own = true → s.step f l = none := hq
  have hfinish : ∀ i, (s.subs i).pc.inCall = false := by
    intro i
    have := hno (.finish i) rfl
    rcases hpc : (s.subs i).pc <;> first | rfl | simp [step, finish, hpc] at this
  have hlock : s.lock = none := by
    by_contra hlock
    obtain ⟨i, hi⟩ := Option.ne_none_iff_exists'.1 hlock
    have := h.held i hi
    rw [hfinish i] at this
    cases this
  intro i
  have hrecv := hno (.recv i) rfl
  have hacquire := hno (.acquire i) rfl
  have hsend := hno (.send i) rfl
  simp only [step, Option.map_eq_none_iff] at hrecv hsend
  simp only [step, hlock, Option.isNone_none, if_true, Option.map_eq_none_iff] at hacquire
  have hin := hfinish i
  rcases hpc : (s.subs i).pc with _ | ⟨mid, msg⟩ | ⟨mid, msg, seen⟩ | ⟨mid, resp⟩ | _ | seen | resp
    | _ | _
  · rcases hrx : (s.subs i).rx with _ | ⟨item, rx⟩
    · exact .inl ⟨hrx, .inl ⟨hpc, by simpa [Subscription.recv, hpc, hrx] using hrecv⟩⟩
    · simp [Subscription.recv, hpc, hrx] at hrecv
  · simp [Subscription.acquire, hpc] at hacquire
  · rw [hpc] at hin
    cases hin
  · simp [Subscription.send, hpc] at hsend
  · simp [Subscription.acquire, hpc] at hacquire
  · rw [hpc] at hin
    cases hin
  · simp [Subscription.send, hpc] at hsend
  · exact .inl ⟨((h.tracked i).drained hpc).1, .inr hpc⟩
  · exact .inr hpc

theorem settles [Fintype ι] (h : (synchronizedItem f h₀).Reachable s) :
    (synchronizedItem f h₀).Settles ItemLabel.own s.work
      (fun s => ∀ i, (s.subs i).Rested ∧ (s.subs i).Answered) s := by
  refine Lts.settles_of_work (J := fun s => Kept s ∧ ∀ i, (s.subs i).InOrder) ?_ ?_
    (kept_of_reachable h)
  · intro s l s' ⟨hk, ho⟩ hown hs
    have hs : s.step f l = some s' := hs
    exact ⟨⟨kept_step hk hs, inOrder_step ho hs⟩, work_step hown hs⟩
  · intro s ⟨hk, ho⟩ hq i
    have hr := rested_of_quiet hk hq i
    exact ⟨hr, hr.answered (ho i)⟩

end SynchronizedItem

end Synchronized

/-- A `BufferUnordered` poller left alone always comes to rest with its items answered, exactly
where it has a permit to give. -/
theorem buffer_unordered_settles_iff (M R E : Type) (m : M) (cfg : BufferUnorderedConfig) :
    (∀ s, (bufferUnorderedPoller M R E cfg).Reachable s →
      (bufferUnorderedPoller M R E cfg).Settles PollerLabel.own s.work
        (fun s => s.Rested ∧ s.Answered) s) ↔ 1 ≤ cfg.maxParallel := by
  constructor
  · intro h
    by_contra hzero
    obtain ⟨s, hr, hq, hrest⟩ := @BufferUnordered.stuck M R E cfg (by omega) m
    exact hrest ((h s hr).of_quiet hq).1
  · exact fun hpos s => BufferUnordered.settles hpos

/-- The subscriptions of a `Synchronized` handler left alone always come to rest, whichever gets
the mutex next, each with the items of its queue answered in order. -/
theorem synchronized_settles {ι H : Type} [DecidableEq ι] [Fintype ι] {M R E : ι → Type}
    (f : SynchronizedHandler M R E H) (h₀ : H) (s : SynchronizedItem M R E H)
    (h : (synchronizedItem f h₀).Reachable s) :
    (synchronizedItem f h₀).Settles ItemLabel.own s.work
      (fun s => ∀ i, (s.subs i).Rested ∧ (s.subs i).Answered) s :=
  SynchronizedItem.settles h

/-- Two subscriptions of a counter, both in line for its mutex. -/
theorem counter_settles :
    let f : SynchronizedHandler (fun _ : Bool => ℕ) (fun _ => ℕ) (fun _ => Unit) ℕ :=
      ⟨fun _ h n => (h + n, some (.ok h)), fun _ h => (h, some (.ok ()))⟩
    ∃ s, (synchronizedItem f 0).Reachable s ∧ (synchronizedItem f 0).Settles ItemLabel.own s.work
      (fun s => ∀ i, (s.subs i).Rested ∧ (s.subs i).Answered) s := by
  intro f
  have hrun : ((synchronizedItem f 0).run [.push false (.request 1 10 true),
      .push true (.request 1 2 true), .recv false, .recv true]).isSome = true := rfl
  have hr := Lts.reachable_of_run (Option.some_get hrun).symm
  exact ⟨_, hr, synchronized_settles f 0 _ hr⟩

end MessageBus
