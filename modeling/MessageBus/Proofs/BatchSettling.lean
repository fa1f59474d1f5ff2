import MessageBus.Proofs.BatchOrder
import MessageBus.Proofs.Settling

/-!
# A batched poller left alone

As an unbatched one, with handlers that come to an end it stops: its tasks are over and its loop
waits or is over. What then has no `Response` is what the buffer still holds, the messages since the
last `Flush` that do not fill a batch; where a handler panicked, it is its batch as well.
-/

namespace MessageBus

open Batching

variable {M R E : Type}

namespace BatchCore

variable {c c' : BatchCore M R E}

/-- The messages taken have a `Response` each but those buffered, which are the ones since the last
`Flush` that do not fill a batch. -/
structure AnsweredButBuffered (b : ℕ) (c : BatchCore M R E) : Prop where
  responses : (c.stx.filterMap Event.mid? ++ c.bufferMid.map (·.1)).Perm
    (c.taken.filterMap Request.mid?)
  handled : (c.handled.flatten ++ c.buffer).Perm (c.taken.filterMap Request.msg?)
  buffered : c.bufferMid.length = sinceFlushCount c.taken % max 1 b

theorem accepted_of_drained (hrx : c.rx = []) : c.accepted = c.taken := by simp [accepted, hrx]

theorem Conserved.answeredButBuffered (hc : Conserved c) {b : ℕ}
    (hs : Shows b c.batches c.buffered c.taken) (hd : c.Done) : AnsweredButBuffered b c := by
  obtain ⟨hst, hh⟩ := hc.of_done hd
  obtain ⟨hbatch, hbuffer⟩ := hs
  have hmid : c.bufferMid = (split b (c.taken.filterMap Request.cmd?)).buffer.map (·.1) :=
    congrArg Batch.mids hbuffer
  have hmsg : c.buffer = (split b (c.taken.filterMap Request.cmd?)).buffer.map (·.2) :=
    congrArg Batch.msgs hbuffer
  have hmids : c.batches.flatMap (fun b => b.mids.map (·.1))
      = (split b (c.taken.filterMap Request.cmd?)).batches.flatten.map (·.1.1) := by
    simp [hbatch, Batch.of, List.flatMap_def, List.map_flatten, Function.comp_def]
  have hmsgs : c.batches.flatMap (·.msgs)
      = (split b (c.taken.filterMap Request.cmd?)).batches.flatten.map (·.2) := by
    simp [hbatch, Batch.of, List.flatMap_def, List.map_flatten, Function.comp_def]
  rw [hmids] at hst
  rw [hmsgs] at hh
  constructor
  · rw [mids_accepted, ← flatten_split b, List.map_append, hmid, List.map_map]
    exact hst.append_right _
  · rw [msgs_accepted, ← flatten_split b, List.map_append, hmsg]
    exact hh.append_right _
  · rw [hmid, List.length_map, length_buffer_split, sinceFlushCount]

end BatchCore

section Work

theorem length_batchAnswers : ∀ (mids : List (UInt64 × Bool)) (re : List R),
    (batchAnswers mids re : List (Event R E)).length = mids.length
  | [], _ => rfl
  | (mid, _) :: mids, r :: re => by simp [batchAnswers, length_batchAnswers mids re]
  | (mid, _) :: mids, [] => by simp [batchAnswers, length_batchAnswers mids []]

theorem length_processBatchResult_le (resp : Except E (List R)) (mids : List (UInt64 × Bool)) :
    (processBatchResult resp mids).length ≤ mids.length + 1 := by
  unfold processBatchResult
  split
  · rw [length_batchAnswers]
    omega
  · simp

/-- The steps a task has still to take, besides that for its mutex. -/
def BatchTask.work (t : BatchTask M R E) : ℕ :=
  match t.stage with
  | .spawned => t.batch.mids.length + 3
  | .handling => t.batch.mids.length + 2
  | .sending evs => evs.length

/-- A task moves on, with less to do. -/
theorem BatchCore.TaskStep.tasks {c c' : BatchCore M R E} (h : TaskStep c c') :
    ∃ i t t', c.tasks[i]? = some t ∧ c'.tasks = c.tasks.set i t' ∧ t'.work < t.work
      ∧ t'.stage.phase ≠ .waiting ∧ c'.stx.length ≤ c.stx.length + 1 := by
  rcases h with ⟨h⟩ | ⟨h⟩ | ⟨h⟩ | ⟨h⟩
  · obtain ⟨batch, hi, rfl⟩ := startTask_eq_some h
    exact ⟨_, _, _, hi, rfl, by simp [BatchTask.work], by rintro ⟨⟩, Nat.le_succ _⟩
  · obtain ⟨batch, hi, rfl⟩ := finishTask_eq_some h
    refine ⟨_, _, _, hi, rfl, ?_, by rintro ⟨⟩, Nat.le_succ _⟩
    exact Nat.lt_succ_of_le (length_processBatchResult_le _ _)
  · obtain ⟨batch, ev, evs, hi, rfl⟩ := sendTask_eq_some h
    exact ⟨_, _, _, hi, rfl, by simp [BatchTask.work], by rintro ⟨⟩, by simp [BatchCore.emit]⟩
  · obtain ⟨batch, hi, rfl⟩ := panicTask_eq_some h
    exact ⟨_, _, _, hi, rfl, by simp [BatchTask.work], by rintro ⟨⟩, Nat.le_succ _⟩

theorem BatchCore.TaskStep.work_lt {c c' : BatchCore M R E} (h : TaskStep c c') :
    (c'.tasks.map BatchTask.work).sum < (c.tasks.map BatchTask.work).sum := by
  obtain ⟨i, t, t', hi, htasks, hlt, -⟩ := h.tasks
  have := Pool.sum_map_set_add BatchTask.work t' hi
  rw [htasks]
  omega

end Work

namespace BufferUnorderedBatched

variable {cfg : BufferUnorderedBatchedConfig} {s s' : BufferUnorderedBatched M R E}

/-- The steps an item takes, those of a task of its own with them. -/
def itemWork : Request M → ℕ
  | .request _ _ _ | .action .flush => 6
  | .action .sync => 3
  | .action _ => 1

def pcWork : BufferUnorderedPc M → ℕ
  | .recv => 1
  | .acquire => 5
  | .flushAcquire batch => batch.mids.length + 6
  | .flushAll => 2
  | .syncAll => 3
  | .syncing => 2
  | .ended | .aborted => 0

def work (s : BufferUnorderedBatched M R E) : ℕ :=
  (s.core.rx.map itemWork).sum + s.core.bufferMid.length + pcWork s.pc
    + (s.core.tasks.map BatchTask.work).sum

theorem work_body (hpc : s.pc = .recv) {item : Request M} {rx : List (Request M)}
    (hrx : s.core.rx = item :: rx) :
    (body cfg { s with core.rx := rx, core.taken := s.core.taken ++ [item] } item).work
      < s.work := by
  have hs : s.work = itemWork item + (rx.map itemWork).sum + s.core.bufferMid.length + 1
      + (s.core.tasks.map BatchTask.work).sum := by
    rw [work, hrx, hpc]
    rfl
  rcases item with a | ⟨mid, msg, req⟩
  · rcases a with id | _ | _ | _ | _
    · simp only [body, BatchCore.emit, work, hpc, pcWork, itemWork] at hs ⊢
      omega
    · simp only [body]
      split_ifs
      · simp only [work, pcWork, itemWork] at hs ⊢
        omega
      · simp only [work, BatchCore.drain, BatchCore.buffered, pcWork, itemWork, List.length_nil]
          at hs ⊢
        omega
    all_goals
      simp only [body, work, hpc, pcWork, itemWork] at hs ⊢
      omega
  · simp only [body]
    split_ifs <;>
      simp only [work, BatchCore.bufferPush, pcWork, itemWork, List.length_append,
        List.length_singleton] at hs ⊢ <;> omega

/-- Every step of its own takes from the work. -/
theorem work_run {l : BufferUnorderedBatchedLabel R E ⊕ Panic}
    (hs : (withPanics (bufferUnorderedBatchPoller M R E cfg) (panic cfg)).step s (.run l)
      = some s') : s'.work < s.work := by
  have htask : ∀ (c : BatchCore M R E) (permits : ℕ), BatchCore.TaskStep s.core c →
      ({ s with core := c, permits := permits } : BufferUnorderedBatched M R E).work < s.work := by
    intro c permits hc
    have := hc.work_lt
    have hf := hc.frame
    simp only [work, hf.rx, hf.bufferMid]
    omega
  rcases l with l | p
  · have hs : s.step cfg (.run l) = some s' := hs
    cases move hs with
    | take item rx hpc hrx => exact work_body hpc hrx
    | ends hpc | flushed hpc | sync hpc | synced resp hpc =>
      simp only [work, BatchCore.emit, hpc, pcWork]
      omega
    | dispatch hpc =>
      simp only [work, BatchCore.drain, BatchCore.spawn, BatchCore.buffered, hpc, pcWork,
        List.map_append, List.sum_append, List.map_cons, List.map_nil, List.sum_singleton,
        BatchTask.work, List.length_nil]
      omega
    | flushDispatch batch hpc =>
      simp only [work, BatchCore.spawn, hpc, pcWork, List.map_append, List.sum_append,
        List.map_cons, List.map_nil, List.sum_singleton, BatchTask.work]
      omega
    | start i c hc => exact htask c _ (.start hc)
    | finish i resp c hc => exact htask c _ (.finish hc)
    | send i c hc => exact htask c _ (.send hc)
  · obtain ⟨i, c, -, hc, rfl⟩ | ⟨-, hpc, rfl⟩ := panic_cases hs
    · exact htask c _ (.panic hc)
    · simp only [work, hpc, pcWork]
      omega

/-- The loop ends with its queue, and `Close` closes the queue. -/
structure Tracked (s : BufferUnorderedBatched M R E) : Prop where
  drained : Drained s
  closing : Request.action .close ∈ s.core.taken → s.core.closed = true

theorem tracked_body (h : Tracked s) (hpc : s.pc = .recv) (item : Request M)
    (rx : List (Request M)) :
    Tracked (body cfg { s with core.rx := rx, core.taken := s.core.taken ++ [item] } item) := by
  refine ⟨fun hp => absurd hp (pc_body (s := { s with core.rx := rx, core.taken := _ }) hpc item),
    fun hmem => ?_⟩
  have hclosed : Request.action .close ∈ s.core.taken ∨ item = .action .close →
      (body cfg { s with core.rx := rx, core.taken := s.core.taken ++ [item] } item).core.closed
        = true := by
    rintro (hmem | rfl)
    · have := h.closing hmem
      rcases item with a | ⟨mid, msg, req⟩
      · cases a with
        | close => rfl
        | flush =>
          simp only [body]
          split_ifs <;> exact this
        | _ => exact this
      · exact this
    · rfl
  have htaken : (body cfg { s with core.rx := rx, core.taken := s.core.taken ++ [item] }
      item).core.taken = s.core.taken ++ [item] := by
    rcases item with a | ⟨mid, msg, req⟩
    · cases a with
      | flush =>
        simp only [body]
        split_ifs <;> rfl
      | _ => rfl
    · rfl
  rw [htaken, List.mem_append, List.mem_singleton] at hmem
  exact hclosed (hmem.imp_right Eq.symm)

theorem tracked_step {l : PollerLabel M (BufferUnorderedBatchedLabel R E ⊕ Panic)}
    (h : Tracked s)
    (hs : (withPanics (bufferUnorderedBatchPoller M R E cfg) (panic cfg)).step s l = some s') :
    Tracked s' := by
  have htask : ∀ (c : BatchCore M R E) (permits : ℕ), BatchCore.TaskStep s.core c →
      Tracked { s with core := c, permits := permits } := by
    intro c permits hc
    have hf := hc.frame
    refine ⟨fun hp => ?_, ?_⟩
    · rw [hf.rx, hf.closed]
      exact h.drained hp
    · rw [hf.taken, hf.closed]
      exact h.closing
  obtain ⟨l', hl'⟩ | ⟨p, hp⟩ := withPanics_step hs
  · have hl' : s.step cfg l' = some s' := hl'
    have hd := drained_step h.drained hl'
    cases move hl' with
    | take item rx hpc => exact tracked_body h hpc item rx
    | start i c hc => exact htask c _ (.start hc)
    | finish i resp c hc => exact htask c _ (.finish hc)
    | send i c hc => exact htask c _ (.send hc)
    | _ => exact ⟨hd, h.closing⟩
  · obtain ⟨i, c, -, hc, rfl⟩ | ⟨-, hpc, rfl⟩ := panic_cases hp
    · exact htask c _ (.panic hc)
    · exact ⟨by rintro ⟨⟩, fun _ => rfl⟩

/-- At rest: the tasks are over, and the loop waits for an item that is not there or is over. -/
structure Rested (s : BufferUnorderedBatched M R E) : Prop where
  tasks : s.core.Done
  loop : s.core.rx = [] ∧ (s.pc = .recv ∧ s.core.closed = false ∨ s.pc = .ended) ∨ s.pc = .aborted

theorem dead_withPanics {l : PollerLabel M (BufferUnorderedBatchedLabel R E ⊕ Panic)} (h : Dead s)
    (hs : (withPanics (bufferUnorderedBatchPoller M R E cfg) (panic cfg)).step s l = some s') :
    Dead s' := by
  obtain ⟨l', hl'⟩ | ⟨p, hp⟩ := withPanics_step hs
  · exact dead_step h hl'
  · obtain ⟨i, c, -, hc, -⟩ | ⟨-, hpc, -⟩ := panic_cases hp
    · exact absurd (.panic hc) h.core.not_taskStep
    · rw [h.pc] at hpc
      cases hpc

theorem Dead.rested (h : Dead s) : Rested s := by
  refine ⟨?_, .inr h.pc⟩
  rw [h.core]
  exact List.forall_mem_nil _

theorem rested_of_quiet (hpos : 1 ≤ cfg.maxParallel) (hg : Guarded cfg s) (h : Tracked s)
    (hq : (withPanics (bufferUnorderedBatchPoller M R E cfg) (panic cfg)).Quiet PollerLabel.own s) :
    Rested s := by
  have hno : ∀ l, s.run cfg l = none := fun l => hq (.run (.inl l)) rfl
  have hpanic : ∀ p, s.panic cfg p = none := fun p => hq (.run (.inr p)) rfl
  have htasks : s.core.Done := by
    intro t ht
    obtain ⟨i, hi⟩ := List.getElem?_of_mem ht
    obtain ⟨batch, stage⟩ := t
    rcases stage with _ | _ | ⟨_ | ⟨ev, evs⟩⟩
    · have := hno (.start i)
      simp [run, BatchCore.startTask, hi] at this
    · have := hpanic (.task i)
      simp [panic, BatchCore.panicTask, hi] at this
    · rfl
    · have := hno (.send i)
      simp [run, BatchCore.sendTask, hi] at this
  have hidle : s.core.tasks.countP (fun t => t.call.busy) = 0 := by
    refine List.countP_eq_zero.2 fun t ht => ?_
    simp [BatchTask.call, HandlerCall.busy, htasks t ht, TaskStage.phase]
  -- With no call left the permits are all there, but for those of a sync.
  have hfree : s.pc.isSyncing = false → s.permits = cfg.maxParallel := by
    intro hsync
    have hshares := hg.shares
    unfold Semaphore.Shares at hshares
    simpa [hidle, BufferUnorderedPc.locks, hsync] using hshares
  have hall : allPermits cfg ≤ cfg.maxParallel := Nat.mod_le _ _
  have hrecv := hno .recv
  have hacquire := hno .acquire
  refine ⟨htasks, ?_⟩
  rcases hpc : s.pc with _ | _ | batch | _ | _ | _ | _ | _
  · rcases hrx : s.core.rx with _ | ⟨item, rx⟩
    · simpa [run, BatchCore.recv, hpc, hrx] using hrecv
    · simp [run, BatchCore.recv, hpc, hrx] at hrecv
  · have := hfree (by rw [hpc]; rfl)
    simp [run, acquire, hpc] at hacquire
    omega
  · have := hfree (by rw [hpc]; rfl)
    simp [run, acquire, hpc] at hacquire
    omega
  · have := hfree (by rw [hpc]; rfl)
    simp [run, acquire, hpc] at hacquire
    omega
  · have := hfree (by rw [hpc]; rfl)
    simp [run, acquire, hpc] at hacquire
    omega
  · have := hpanic .sync
    simp [panic, hpc] at this
  · simp [(h.drained hpc).1]
  · simp

/-- With handlers that return, a loop at rest owes an answer only to what it buffers. -/
theorem Rested.answered (hr : Rested s) (hsplit : Splits cfg s) (hc : s.core.Conserved) :
    s.core.AnsweredButBuffered cfg.batchSize := by
  unfold Splits shown at hsplit
  rcases hr.loop with ⟨-, ⟨hp, -⟩ | hp⟩ | hp <;> rw [hp] at hsplit <;>
    exact hc.answeredButBuffered hsplit hr.tasks

theorem tracked_start : Tracked (start cfg : BufferUnorderedBatched M R E) :=
  ⟨drained_start, by rintro ⟨⟩⟩

theorem tracked_of_reachable
    (hr : (withPanics (bufferUnorderedBatchPoller M R E cfg) (panic cfg)).Reachable s) :
    Tracked s :=
  Lts.invariant tracked_start (fun _ _ _ => tracked_step) hr

/-- What a handler may panic in it may return from. -/
theorem quiet_withPanics (hq : (bufferUnorderedBatchPoller M R E cfg).Quiet PollerLabel.own s) :
    (withPanics (bufferUnorderedBatchPoller M R E cfg) (panic cfg)).Quiet PollerLabel.own s := by
  rintro (item | l | p) hown
  · cases hown
  · exact hq (.run l) rfl
  · show s.panic cfg p = none
    by_contra hne
    obtain ⟨s', hs'⟩ := Option.ne_none_iff_exists'.1 hne
    obtain ⟨i, c, -, hc, -⟩ | ⟨-, hpc, -⟩ := panic_cases hs'
    · obtain ⟨batch, hi, -⟩ := BatchCore.panicTask_eq_some hc
      have : s.run cfg (.finish i (.ok [])) = none := hq (.run (.finish i (.ok []))) rfl
      simp [run, BatchCore.finishTask, hi] at this
    · have : s.run cfg (.syncDone (.ok ())) = none := hq (.run (.syncDone (.ok ()))) rfl
      simp [run, hpc] at this

/-- Two ways to come to rest: with a permit to give, and without a loop. -/
def Rests (cfg : BufferUnorderedBatchedConfig) (s : BufferUnorderedBatched M R E) : Prop :=
  1 ≤ cfg.maxParallel ∨ Dead s

theorem rests_of_reachable (hcfg : 1 ≤ cfg.maxParallel ∨ ¬ cfg.Starts)
    (hr : (withPanics (bufferUnorderedBatchPoller M R E cfg) (panic cfg)).Reachable s) :
    Rests cfg s := by
  rcases hcfg with hpos | hcfg
  · exact .inl hpos
  · exact .inr (Lts.invariant (dead_start hcfg) (fun _ _ _ => dead_withPanics) hr)

theorem Rests.rested (h : Rests cfg s) (hg : Guarded cfg s) (ht : Tracked s)
    (hq : (withPanics (bufferUnorderedBatchPoller M R E cfg) (panic cfg)).Quiet PollerLabel.own s) :
    Rested s := by
  rcases h with hpos | hdead
  · exact rested_of_quiet hpos hg ht hq
  · exact hdead.rested

theorem settles_panics (hcfg : 1 ≤ cfg.maxParallel ∨ ¬ cfg.Starts)
    (hr : (withPanics (bufferUnorderedBatchPoller M R E cfg) (panic cfg)).Reachable s) :
    (withPanics (bufferUnorderedBatchPoller M R E cfg) (panic cfg)).Settles PollerLabel.own s.work
      Rested s := by
  refine Lts.settles_of_work
    (J := (withPanics (bufferUnorderedBatchPoller M R E cfg) (panic cfg)).Reachable) ?_ ?_ hr
  · rintro s (item | l) s' hr hown hs
    · cases hown
    · exact ⟨hr.step hs, work_run hs⟩
  · exact fun s hr hq => (rests_of_reachable hcfg hr).rested (guarded_of_reachable hr).1
      (tracked_of_reachable hr) hq

theorem settles_returning (hcfg : 1 ≤ cfg.maxParallel ∨ ¬ cfg.Starts)
    (hr : (bufferUnorderedBatchPoller M R E cfg).Reachable s) :
    (bufferUnorderedBatchPoller M R E cfg).Settles PollerLabel.own s.work
      (fun s => Rested s ∧ s.core.AnsweredButBuffered cfg.batchSize) s := by
  refine Lts.settles_of_work (J := (bufferUnorderedBatchPoller M R E cfg).Reachable) ?_ ?_ hr
  · rintro s (item | l) s' hr hown hs
    · cases hown
    · exact ⟨hr.step hs, @work_run _ _ _ cfg _ _ (.inl l) hs⟩
  · intro s hr hq
    have hr' : (withPanics (bufferUnorderedBatchPoller M R E cfg) (panic cfg)).Reachable s :=
      reachable_withPanics hr
    have hg := guarded_of_reachable hr'
    have hrest := (rests_of_reachable hcfg hr').rested hg.1 (tracked_of_reachable hr')
      (quiet_withPanics hq)
    have hc : s.core.Conserved :=
      Lts.invariant (J := fun s => s.core.Conserved) .start (fun _ _ _ => conserved_step) hr
    exact ⟨hrest, hrest.answered hg.2 hc⟩

/-- With no permit there is, the first batch keeps the loop for good. -/
theorem stuck (hzero : cfg.maxParallel = 0) (hcfg : cfg.Starts) (m : M) :
    ∃ s, (bufferUnorderedBatchPoller M R E cfg).Reachable s
      ∧ (bufferUnorderedBatchPoller M R E cfg).Quiet PollerLabel.own s ∧ ¬ Rested s := by
  obtain ⟨n, b, size⟩ := cfg
  obtain rfl : n = 0 := hzero
  have hquiet : ∀ core pc, core.tasks = [] → (pc = .acquire ∨ ∃ batch, pc = .flushAcquire batch) →
      (bufferUnorderedBatchPoller M R E ⟨0, b, size⟩).Quiet PollerLabel.own
        (⟨core, pc, 0⟩ : BufferUnorderedBatched M R E)
      ∧ ¬ Rested (⟨core, pc, 0⟩ : BufferUnorderedBatched M R E) := by
    rintro core pc htasks (rfl | ⟨batch, rfl⟩)
    all_goals
      refine ⟨?_, fun hrest => ?_⟩
      · rintro (item | l) hown
        · cases hown
        · cases l <;> first | rfl | simp [bufferUnorderedBatchPoller, step, run,
            BatchCore.startTask, BatchCore.finishTask, BatchCore.sendTask, htasks]
      · rcases hrest.loop with ⟨-, ⟨hpc, -⟩ | hpc⟩ | hpc <;> cases hpc
  by_cases hb : b ≤ 1
  · have hr : (bufferUnorderedBatchPoller M R E ⟨0, b, size⟩).run
        [.push (.request 1 m false), .run .recv]
        = some ⟨⟨[], false, [(1, false)], [m], [], [], [.request 1 m false], []⟩, .acquire, 0⟩ := by
      simp [Lts.run, Lts.runFrom, bufferUnorderedBatchPoller, step, run, start, BatchCore.start,
        BatchCore.push, BatchCore.recv, body, BatchCore.bufferPush, hb, hcfg]
    exact ⟨_, Lts.reachable_of_run hr, hquiet _ _ rfl (.inl rfl)⟩
  · have hr : (bufferUnorderedBatchPoller M R E ⟨0, b, size⟩).run
        [.push (.request 1 m false), .push (.action .flush), .run .recv, .run .recv]
        = some ⟨⟨[], false, [], [], [], [], [.request 1 m false, .action .flush], []⟩,
          .flushAcquire ⟨[(1, false)], [m]⟩, 0⟩ := by
      simp [Lts.run, Lts.runFrom, bufferUnorderedBatchPoller, step, run, start, BatchCore.start,
        BatchCore.push, BatchCore.recv, body, BatchCore.bufferPush, BatchCore.drain,
        BatchCore.buffered, hb, hcfg]
    exact ⟨_, Lts.reachable_of_run hr, hquiet _ _ rfl (.inr ⟨_, rfl⟩)⟩

end BufferUnorderedBatched

namespace SynchronizedBatched

variable {cfg : SynchronizedBatchedConfig} {s s' : SynchronizedBatched M R E}

/-- The steps a poller takes by itself, and others that have asked for the mutex. -/
def own : PollerLabel M (SynchronizedBatchedLabel R E ⊕ Panic) → Bool
  | .push _ | .run (.inl .askOther) => false
  | _ => true

/-- The steps an item takes, those of a task of its own with them. -/
def itemWork : Request M → ℕ
  | .request _ _ _ => 6
  | .action .flush => 5
  | .action .sync => 4
  | .action _ => 1

def pcWork : SynchronizedPc → ℕ
  | .recv => 1
  | .syncAsk => 4
  | .syncWait => 3
  | .syncing => 2
  | .ended | .aborted => 0

/-- The steps of a task, one more before it has asked for the mutex. -/
def taskWork (lock : List Holder) (i : ℕ) (t : BatchTask M R E) : ℕ :=
  t.work + if t.stage.phase = .waiting ∧ .task i ∉ lock then 1 else 0

def tasksWork (lock : List Holder) (tasks : List (BatchTask M R E)) : ℕ :=
  ∑ i ∈ Finset.range tasks.length, (tasks[i]?.map (taskWork lock i)).getD 0

def work (s : SynchronizedBatched M R E) : ℕ :=
  (s.core.rx.map itemWork).sum + s.core.bufferMid.length + pcWork s.pc
    + tasksWork s.lock s.core.tasks + s.lock.count .other

theorem tasksWork_spawn (lock : List Holder) (tasks : List (BatchTask M R E)) (batch : Batch M) :
    tasksWork lock (tasks ++ [⟨batch, .spawned⟩])
      ≤ tasksWork lock tasks + (batch.mids.length + 4) := by
  unfold tasksWork
  rw [List.length_append, List.length_singleton, Finset.sum_range_succ,
    List.getElem?_append_right (Nat.le_refl _)]
  refine Nat.add_le_add (Finset.sum_le_sum fun i hi => ?_) ?_
  · rw [List.getElem?_append_left (Finset.mem_range.1 hi)]
  · simp only [Nat.sub_self, List.getElem?_cons_zero, Option.map_some, Option.getD_some, taskWork,
      BatchTask.work]
    split_ifs <;> omega

/-- One task has less to do, and no other has lost its place in line. -/
theorem tasksWork_lt {lock : List Holder} {tasks : List (BatchTask M R E)} {i : ℕ}
    {t : BatchTask M R E} (lock' : List Holder) (t' : BatchTask M R E) (hi : tasks[i]? = some t)
    (hlt : taskWork lock' i t' < taskWork lock i t)
    (hlock : ∀ j t, j ≠ i → tasks[j]? = some t → t.stage.phase = .waiting → .task j ∈ lock →
      .task j ∈ lock') :
    tasksWork lock' (tasks.set i t') < tasksWork lock tasks := by
  have hlen := (List.getElem?_eq_some_iff.1 hi).1
  unfold tasksWork
  rw [List.length_set]
  refine Finset.sum_lt_sum (fun j hj => ?_) ⟨i, Finset.mem_range.2 hlen, ?_⟩
  · by_cases hji : j = i
    · subst hji
      rw [List.getElem?_set_self hlen, hi]
      exact Nat.le_of_lt hlt
    · rw [List.getElem?_set_ne (Ne.symm hji)]
      rcases hj' : tasks[j]? with _ | t₂
      · exact Nat.le_refl _
      · have := hlock j t₂ hji hj'
        simp only [Option.map_some, Option.getD_some, taskWork]
        split_ifs with h₁ h₂ <;> first | omega | exact absurd ⟨h₁.1, fun h => h₁.2 (this h₁.1 h)⟩ h₂
  · rw [List.getElem?_set_self hlen, hi]
    exact hlt

/-- Who has asked for the mutex is in line once, a task until its call is over, a sync until it is
over; and whoever is in the handler is the first in line. -/
structure Queued (s : SynchronizedBatched M R E) : Prop where
  once : ∀ x, x ≠ .other → s.lock.count x ≤ 1
  task : ∀ i, .task i ∈ s.lock → ∃ t, s.core.tasks[i]? = some t ∧ t.stage.phase ≠ .over
  running : ∀ i t, s.core.tasks[i]? = some t → t.stage.phase = .running →
    s.lock.head? = some (.task i)
  sync : .sync ∈ s.lock → s.pc = .syncWait ∨ s.pc = .syncing
  waits : s.pc = .syncWait → .sync ∈ s.lock
  syncing : s.pc = .syncing → s.lock.head? = some .sync

theorem Queued.start : Queued (start cfg : SynchronizedBatched M R E) := by
  refine ⟨fun _ _ => Nat.zero_le _, by rintro _ ⟨⟩, by rintro _ _ ⟨⟩, by rintro ⟨⟩, ?_, ?_⟩ <;>
    unfold SynchronizedBatched.start <;> dsimp only <;> split_ifs <;> rintro ⟨⟩

/-- Only the tasks, the line and the loop count. -/
theorem Queued.congr (h : Queued s) (ht : s'.core.tasks = s.core.tasks) (hl : s'.lock = s.lock)
    (hp : s'.pc = s.pc) : Queued s' := by
  obtain ⟨honce, htask, hrun, hsync, hwaits, hsyncing⟩ := h
  constructor <;> simp only [ht, hl, hp] <;> assumption

/-- Someone asks, whoever is first in line stays so. -/
theorem head?_ask {lock : List Holder} {x : Holder} (h : lock.head? = some x) (y : Holder) :
    (lock ++ [y]).head? = some x := by
  rw [List.head?_append, h]
  rfl

theorem Queued.askTask (h : Queued s) {i : ℕ} {t : BatchTask M R E}
    (hi : s.core.tasks[i]? = some t) (ht : t.stage.phase = .waiting) (hn : .task i ∉ s.lock) :
    Queued { s with lock := s.lock ++ [.task i] } where
  once x hx := by
    rw [List.count_append, List.count_singleton]
    split_ifs with hxi
    · rw [beq_iff_eq] at hxi
      subst hxi
      rw [List.count_eq_zero.2 hn]
    · exact h.once x hx
  task j hj := by
    rcases List.mem_append.1 hj with hj | hj
    · exact h.task j hj
    · cases List.mem_singleton.1 hj
      exact ⟨t, hi, by rw [ht]; rintro ⟨⟩⟩
  running j t' hj ht' := head?_ask (h.running j t' hj ht') _
  sync hmem := by
    rcases List.mem_append.1 hmem with hmem | hmem
    · exact h.sync hmem
    · cases List.mem_singleton.1 hmem
  waits hp := List.mem_append_left _ (h.waits hp)
  syncing hp := head?_ask (h.syncing hp) _

/-- The loop moves on outside a sync, and spawns at most one task. -/
theorem Queued.loop (h : Queued s) (hpc : s.pc = .recv) {core : BatchCore M R E}
    (htasks : core.tasks = s.core.tasks
      ∨ ∃ batch, core.tasks = s.core.tasks ++ [⟨batch, .spawned⟩])
    {pc : SynchronizedPc} (hw : pc ≠ .syncWait) (hs : pc ≠ .syncing) :
    Queued { s with core := core, pc := pc } := by
  have hsync : .sync ∉ s.lock := by
    intro hmem
    rcases h.sync hmem with hp | hp <;> rw [hpc] at hp <;> cases hp
  have hold : ∀ (i : ℕ) (t : BatchTask M R E), s.core.tasks[i]? = some t →
      core.tasks[i]? = some t := by
    intro i t hi
    rcases htasks with htasks | ⟨batch, htasks⟩
    · rw [htasks, hi]
    · rw [htasks, List.getElem?_append_left (List.getElem?_eq_some_iff.1 hi).1, hi]
  refine ⟨h.once, fun i hi => ?_, fun i t hi ht => ?_, fun hmem => absurd hmem hsync,
    fun hp => absurd hp hw, fun hp => absurd hp hs⟩
  · obtain ⟨t, hi, ht⟩ := h.task i hi
    exact ⟨t, hold i t hi, ht⟩
  · rcases htasks with htasks | ⟨batch, htasks⟩
    · exact h.running i t (htasks ▸ hi) ht
    · have hi : (s.core.tasks ++ [⟨batch, .spawned⟩])[i]? = some t := htasks ▸ hi
      by_cases hlt : i < s.core.tasks.length
      · rw [List.getElem?_append_left hlt] at hi
        exact h.running i t hi ht
      · rw [List.getElem?_append_right (by omega), List.getElem?_singleton] at hi
        split_ifs at hi
        cases hi
        cases ht

/-- The task first in line gets the mutex, or a task with no call left moves on. -/
theorem Queued.setTask (h : Queued s) {i : ℕ} {t t' : BatchTask M R E} {core : BatchCore M R E}
    (hi : s.core.tasks[i]? = some t) (htasks : core.tasks = s.core.tasks.set i t')
    (hover : t'.stage.phase = .over → t.stage.phase = .over)
    (hrun : t'.stage.phase = .running → s.lock.head? = some (.task i)) :
    Queued { s with core := core } := by
  have hlen := (List.getElem?_eq_some_iff.1 hi).1
  refine ⟨h.once, fun j hj => ?_, fun j t₂ hj ht₂ => ?_, h.sync, h.waits, h.syncing⟩
  · obtain ⟨t₂, ht₂, hphase⟩ := h.task j hj
    dsimp only
    rw [htasks]
    by_cases hji : i = j
    · subst hji
      rw [hi] at ht₂
      cases ht₂
      exact ⟨t', List.getElem?_set_self hlen, fun hp => hphase (hover hp)⟩
    · rw [List.getElem?_set_ne hji]
      exact ⟨t₂, ht₂, hphase⟩
  · have hj : core.tasks[j]? = some t₂ := hj
    rw [htasks] at hj
    by_cases hji : i = j
    · subst hji
      rw [List.getElem?_set_self hlen] at hj
      cases hj
      exact hrun ht₂
    · rw [List.getElem?_set_ne hji] at hj
      exact h.running j t₂ hj ht₂

/-- The call of the task first in line is over. -/
theorem Queued.release (h : Queued s) {i : ℕ} {t' : BatchTask M R E} {core : BatchCore M R E}
    (hhead : s.lock.head? = some (.task i)) (htasks : core.tasks = s.core.tasks.set i t')
    (hover : t'.stage.phase = .over) : Queued { s with core := core, lock := s.lock.tail } := by
  obtain ⟨lock, hlock⟩ := List.head?_eq_some_iff.1 hhead
  have honce := h.once (.task i) (by rintro ⟨⟩)
  have hnot : .task i ∉ lock := by
    rw [hlock, List.count_cons_self] at honce
    exact List.count_eq_zero.1 (by omega)
  have htail : s.lock.tail = lock := by rw [hlock]; rfl
  rw [htail]
  have hsub : ∀ x, x ∈ lock → x ∈ s.lock := fun x hx => by
    rw [hlock]
    exact List.mem_cons_of_mem _ hx
  refine ⟨fun x hx => ?_, fun j hj => ?_, fun j t₂ hj ht₂ => ?_, fun hmem => h.sync (hsub _ hmem),
    fun hp => ?_, fun hp => ?_⟩
  · have := h.once x hx
    rw [hlock, List.count_cons] at this
    dsimp only
    omega
  · obtain ⟨t₂, ht₂, hphase⟩ := h.task j (hsub _ hj)
    have hji : i ≠ j := by
      rintro rfl
      exact hnot hj
    refine ⟨t₂, ?_, hphase⟩
    show core.tasks[j]? = some t₂
    rw [htasks, List.getElem?_set_ne hji, ht₂]
  · have hj : core.tasks[j]? = some t₂ := hj
    rw [htasks] at hj
    by_cases hji : i = j
    · subst hji
      obtain ⟨hlt, -⟩ := List.getElem?_eq_some_iff.1 hj
      rw [List.getElem?_set_self (by simpa using hlt)] at hj
      cases hj
      rw [hover] at ht₂
      cases ht₂
    · rw [List.getElem?_set_ne hji] at hj
      have := h.running j t₂ hj ht₂
      rw [hhead] at this
      cases this
      exact absurd rfl hji
  · have hmem := h.waits hp
    rw [hlock, List.mem_cons] at hmem
    exact hmem.resolve_left (by rintro ⟨⟩)
  · have := h.syncing hp
    rw [hhead] at this
    cases this

/-- Someone first in line who is no task goes. -/
theorem Queued.pop (h : Queued s) {x : Holder} (hhead : s.lock.head? = some x)
    (hx : ∀ i, x ≠ .task i) (pc : SynchronizedPc) (hpc : x = .other ∧ pc = s.pc
      ∨ x = .sync ∧ pc ≠ .syncWait ∧ pc ≠ .syncing) :
    Queued { s with pc := pc, lock := s.lock.tail } := by
  obtain ⟨lock, hlock⟩ := List.head?_eq_some_iff.1 hhead
  have htail : s.lock.tail = lock := by rw [hlock]; rfl
  have hsub : ∀ x, x ∈ lock → x ∈ s.lock := fun x hx => by
    rw [hlock]
    exact List.mem_cons_of_mem _ hx
  rw [htail]
  refine ⟨fun y hy => ?_, fun j hj => ?_, fun j t hj ht => ?_, fun hmem => ?_, fun hp => ?_,
    fun hp => ?_⟩
  · have := h.once y hy
    rw [hlock, List.count_cons] at this
    dsimp only
    omega
  · exact h.task j (hsub _ hj)
  · have := h.running j t hj ht
    rw [hhead] at this
    exact absurd (Option.some.inj this) (hx j)
  · rcases hpc with ⟨-, rfl⟩ | ⟨rfl, -⟩
    · exact h.sync (hsub _ hmem)
    · have honce := h.once .sync (by rintro ⟨⟩)
      rw [hlock, List.count_cons_self] at honce
      have hmem : .sync ∈ lock := hmem
      exact absurd hmem (List.count_eq_zero.1 (by omega))
  · rcases hpc with ⟨rfl, rfl⟩ | ⟨-, hw, -⟩
    · have hmem := h.waits hp
      rw [hlock, List.mem_cons] at hmem
      exact hmem.resolve_left (by rintro ⟨⟩)
    · exact absurd hp hw
  · rcases hpc with ⟨rfl, rfl⟩ | ⟨-, -, hs⟩
    · have := h.syncing hp
      rw [hhead] at this
      cases this
    · exact absurd hp hs

theorem queued_step {l : PollerLabel M (SynchronizedBatchedLabel R E)} (h : Queued s)
    (hs : s.step cfg l = some s') : Queued s' := by
  cases move hs with
  | push item => exact h.congr rfl rfl rfl
  | take item rx hpc hrx =>
    obtain ⟨hlock, htasks⟩ := HandledBatches.tasks_body cfg
      { s with core.rx := rx, core.taken := s.core.taken ++ [item] } item
    have hw : (body cfg { s with core.rx := rx, core.taken := s.core.taken ++ [item] } item).pc
          ≠ .syncWait
        ∧ (body cfg { s with core.rx := rx, core.taken := s.core.taken ++ [item] } item).pc
          ≠ .syncing := by
      rcases item with a | ⟨mid, msg, req⟩
      · cases a <;> simp [body, hpc]
      · simp [body, hpc]
    exact (h.loop hpc htasks hw.1 hw.2).congr rfl hlock rfl
  | ends hpc => exact h.loop hpc (.inl rfl) (by rintro ⟨⟩) (by rintro ⟨⟩)
  | ask i batch hi hn => exact h.askTask hi rfl hn
  | start i c hhead hc =>
    obtain ⟨batch, hi, rfl⟩ := BatchCore.startTask_eq_some hc
    exact h.setTask hi rfl (by rintro ⟨⟩) fun _ => hhead
  | finish i resp c hhead hc =>
    obtain ⟨batch, hi, rfl⟩ := BatchCore.finishTask_eq_some hc
    exact h.release hhead rfl rfl
  | send i c hc =>
    obtain ⟨batch, ev, evs, hi, rfl⟩ := BatchCore.sendTask_eq_some hc
    exact h.setTask hi rfl (fun _ => rfl) (by rintro ⟨⟩)
  | askSync hpc =>
    have hn : .sync ∉ s.lock := by
      intro hmem
      rcases h.sync hmem with hp | hp <;> rw [hpc] at hp <;> cases hp
    refine ⟨fun x hx => ?_, fun i hi => ?_, fun i t hi ht => head?_ask (h.running i t hi ht) _,
      fun _ => .inl rfl, fun _ => List.mem_append_right _ (List.mem_singleton_self _), by rintro ⟨⟩⟩
    · rw [List.count_append, List.count_singleton]
      split_ifs with hxs
      · rw [beq_iff_eq] at hxs
        subst hxs
        rw [List.count_eq_zero.2 hn]
      · exact h.once x hx
    · rcases List.mem_append.1 hi with hi | hi
      · exact h.task i hi
      · cases List.mem_singleton.1 hi
  | startSync hpc hhead =>
    exact ⟨h.once, h.task, h.running, fun _ => .inr rfl, by rintro ⟨⟩, fun _ => hhead⟩
  | synced resp hpc =>
    exact (h.pop (h.syncing hpc) (by rintro _ ⟨⟩) .recv
      (.inr ⟨rfl, by rintro ⟨⟩, by rintro ⟨⟩⟩)).congr rfl rfl rfl
  | askOther =>
    refine ⟨fun x hx => ?_, fun i hi => ?_, fun i t hi ht => head?_ask (h.running i t hi ht) _,
      fun hmem => ?_, fun hp => List.mem_append_left _ (h.waits hp),
      fun hp => head?_ask (h.syncing hp) _⟩
    · rw [List.count_append, List.count_singleton, if_neg (by simpa using Ne.symm hx)]
      exact h.once x hx
    · rcases List.mem_append.1 hi with hi | hi
      · exact h.task i hi
      · cases List.mem_singleton.1 hi
    · rcases List.mem_append.1 hmem with hmem | hmem
      · exact h.sync hmem
      · cases List.mem_singleton.1 hmem
  | otherDone hhead => exact h.pop hhead (by rintro _ ⟨⟩) s.pc (.inl ⟨rfl, rfl⟩)

theorem queued_panic {p : Panic} (h : Queued s) (hs : s.panic p = some s') : Queued s' := by
  obtain ⟨i, c, -, hhead, hc, rfl⟩ | ⟨-, hpc, rfl⟩ := panic_cases hs
  · obtain ⟨batch, hi, rfl⟩ := BatchCore.panicTask_eq_some hc
    exact h.release hhead rfl rfl
  · exact (h.pop (h.syncing hpc) (by rintro _ ⟨⟩) .aborted
      (.inr ⟨rfl, by rintro ⟨⟩, by rintro ⟨⟩⟩)).congr rfl rfl rfl

theorem work_body (hpc : s.pc = .recv) {item : Request M} {rx : List (Request M)}
    (hrx : s.core.rx = item :: rx) :
    (body cfg { s with core.rx := rx, core.taken := s.core.taken ++ [item] } item).work
      < s.work := by
  have hs : s.work = itemWork item + (rx.map itemWork).sum + s.core.bufferMid.length + 1
      + tasksWork s.lock s.core.tasks + s.lock.count .other := by
    rw [work, hrx, hpc]
    rfl
  rcases item with a | ⟨mid, msg, req⟩
  · rcases a with id | _ | _ | _ | _
    · simp only [body, BatchCore.emit, work, hpc, pcWork, itemWork] at hs ⊢
      omega
    · have := tasksWork_spawn s.lock s.core.tasks s.core.buffered
      simp only [body]
      split_ifs
      · simp only [work, BatchCore.emit, hpc, pcWork, itemWork] at hs ⊢
        omega
      · simp only [work, BatchCore.emit, BatchCore.spawn, BatchCore.drain, BatchCore.buffered, hpc,
          pcWork, itemWork, List.length_nil] at hs this ⊢
        omega
    all_goals
      simp only [body, work, hpc, pcWork, itemWork] at hs ⊢
      omega
  · have := tasksWork_spawn s.lock s.core.tasks (s.core.bufferPush mid msg req).buffered
    simp only [body]
    split_ifs <;>
      simp only [work, BatchCore.bufferPush, BatchCore.spawn, BatchCore.drain, BatchCore.buffered,
        hpc, pcWork, itemWork, List.length_append, List.length_singleton, List.length_nil]
        at hs this ⊢ <;> omega

/-- A step of a task takes from the work, whichever way its place in line goes. -/
theorem work_task {i : ℕ} {t t' : BatchTask M R E} {c : BatchCore M R E} {lock : List Holder}
    (hi : s.core.tasks[i]? = some t) (htasks : c.tasks = s.core.tasks.set i t')
    (hlt : t'.work < t.work) (hphase : t'.stage.phase ≠ .waiting) (hrx : c.rx = s.core.rx)
    (hbuf : c.bufferMid = s.core.bufferMid) (hlock : ∀ j, j ≠ i → .task j ∈ s.lock → .task j ∈ lock)
    (hother : lock.count .other = s.lock.count .other) :
    ({ s with core := c, lock := lock } : SynchronizedBatched M R E).work < s.work := by
  have := tasksWork_lt lock t' hi
    (by simp only [taskWork, if_neg (fun h : t'.stage.phase = .waiting ∧ _ => hphase h.1)]; omega)
    (fun j _ hj _ _ => hlock j hj)
  simp only [work, htasks, hrx, hbuf, hother]
  omega

/-- All but the first in line are in line still. -/
theorem mem_tail {lock : List Holder} {x y : Holder} (hhead : lock.head? = some x) (hy : y ∈ lock)
    (hne : y ≠ x) : y ∈ lock.tail := by
  obtain ⟨rest, rfl⟩ := List.head?_eq_some_iff.1 hhead
  exact (List.mem_cons.1 hy).resolve_left hne

theorem count_tail {lock : List Holder} {x : Holder} (hhead : lock.head? = some x)
    (hx : x ≠ .other) : lock.tail.count .other = lock.count .other := by
  obtain ⟨rest, rfl⟩ := List.head?_eq_some_iff.1 hhead
  rw [List.tail_cons, List.count_cons_of_ne hx]

theorem tasksWork_le {lock : List Holder} (lock' : List Holder) (tasks : List (BatchTask M R E))
    (hlock : ∀ j, .task j ∈ lock → .task j ∈ lock') :
    tasksWork lock' tasks ≤ tasksWork lock tasks := by
  refine Finset.sum_le_sum fun j _ => ?_
  rcases tasks[j]? with _ | t
  · exact Nat.le_refl _
  · have := hlock j
    simp only [Option.map_some, Option.getD_some, taskWork]
    split_ifs with h₁ h₂ <;> first | omega | exact absurd ⟨h₁.1, fun h => h₁.2 (this h)⟩ h₂

/-- Every step of its own takes from the work. -/
theorem work_run {l : PollerLabel M (SynchronizedBatchedLabel R E ⊕ Panic)} (h : Queued s)
    (hown : own l = true)
    (hs : (withPanics (batchSynchronizedPoller M R E cfg) panic).step s l = some s') :
    s'.work < s.work := by
  rcases l with item | l | p
  · cases hown
  · have hs : s.step cfg (.run l) = some s' := hs
    cases move hs with
    | take item rx hpc hrx => exact work_body hpc hrx
    | ends hpc | startSync hpc =>
      simp only [work, hpc, pcWork]
      omega
    | ask i batch hi hn =>
      have hset : s.core.tasks.set i ⟨batch, .spawned⟩ = s.core.tasks := by
        obtain ⟨hlt, hget⟩ := List.getElem?_eq_some_iff.1 hi
        rw [← hget, List.set_getElem_self]
      have := tasksWork_lt (s.lock ++ [.task i]) ⟨batch, .spawned⟩ hi
        (by simp [taskWork, TaskStage.phase, hn]) fun j _ _ _ _ hj => List.mem_append_left _ hj
      rw [hset] at this
      simp only [work, List.count_append, List.count_singleton, beq_iff_eq, reduceCtorEq, if_false]
      omega
    | start i c hhead hc =>
      obtain ⟨batch, hi, rfl⟩ := BatchCore.startTask_eq_some hc
      exact work_task hi rfl (by simp [BatchTask.work]) (by rintro ⟨⟩) rfl rfl
        (fun _ _ hj => hj) rfl
    | finish i resp c hhead hc =>
      obtain ⟨batch, hi, rfl⟩ := BatchCore.finishTask_eq_some hc
      refine work_task hi rfl ?_ (by rintro ⟨⟩) rfl rfl (fun j hj hmem => ?_)
        (count_tail hhead (by rintro ⟨⟩))
      · exact Nat.lt_succ_of_le (length_processBatchResult_le _ _)
      · exact mem_tail hhead hmem (by simpa using hj)
    | send i c hc =>
      obtain ⟨batch, ev, evs, hi, rfl⟩ := BatchCore.sendTask_eq_some hc
      exact work_task hi rfl (by simp [BatchTask.work]) (by rintro ⟨⟩) rfl rfl
        (fun _ _ hj => hj) rfl
    | askSync hpc =>
      have := tasksWork_le (s.lock ++ [.sync]) s.core.tasks
        fun j hj => List.mem_append_left _ hj
      simp only [work, hpc, pcWork, List.count_append, List.count_singleton, beq_iff_eq,
        reduceCtorEq, if_false]
      omega
    | synced resp hpc =>
      have hhead := h.syncing hpc
      have := tasksWork_le s.lock.tail s.core.tasks
        fun j hj => mem_tail hhead hj (by rintro ⟨⟩)
      have := count_tail hhead (by rintro ⟨⟩)
      simp only [work, BatchCore.emit, hpc, pcWork]
      omega
    | askOther => cases hown
    | otherDone hhead =>
      have := tasksWork_le s.lock.tail s.core.tasks
        fun j hj => mem_tail hhead hj (by rintro ⟨⟩)
      obtain ⟨rest, hlock⟩ := List.head?_eq_some_iff.1 hhead
      rw [hlock] at this
      simp only [work, hlock, List.tail_cons, List.count_cons_self] at this ⊢
      omega
  · obtain ⟨i, c, -, hhead, hc, rfl⟩ | ⟨-, hpc, rfl⟩ := panic_cases hs
    · obtain ⟨batch, hi, rfl⟩ := BatchCore.panicTask_eq_some hc
      exact work_task hi rfl (by simp [BatchTask.work]) (by rintro ⟨⟩) rfl rfl
        (fun j hj hmem => mem_tail hhead hmem (by simpa using hj)) (count_tail hhead (by rintro ⟨⟩))
    · have hhead := h.syncing hpc
      have := tasksWork_le s.lock.tail s.core.tasks
        fun j hj => mem_tail hhead hj (by rintro ⟨⟩)
      have := count_tail hhead (by rintro ⟨⟩)
      simp only [work, hpc, pcWork]
      omega

/-- The loop ends with its queue, and `Close` closes the queue. -/
structure Tracked (s : SynchronizedBatched M R E) : Prop where
  drained : Drained s
  closing : Request.action .close ∈ s.core.taken → s.core.closed = true

theorem tracked_body (h : Tracked s) (hpc : s.pc = .recv) (item : Request M)
    (rx : List (Request M)) :
    Tracked (body cfg { s with core.rx := rx, core.taken := s.core.taken ++ [item] } item) := by
  refine ⟨fun hp => absurd hp (pc_body (s := { s with core.rx := rx, core.taken := _ }) hpc item),
    fun hmem => ?_⟩
  rw [taken_body, List.mem_append, List.mem_singleton] at hmem
  rcases hmem with hmem | rfl
  · have := h.closing hmem
    rcases item with a | ⟨mid, msg, req⟩
    · cases a with
      | close => rfl
      | flush =>
        simp only [body]
        split_ifs <;> exact this
      | _ => exact this
    · simp only [body]
      split_ifs <;> exact this
  · rfl

theorem tracked_step {l : PollerLabel M (SynchronizedBatchedLabel R E ⊕ Panic)} (h : Tracked s)
    (hs : (withPanics (batchSynchronizedPoller M R E cfg) panic).step s l = some s') :
    Tracked s' := by
  have htask : ∀ (c : BatchCore M R E) (lock : List Holder), BatchCore.TaskStep s.core c →
      Tracked { s with core := c, lock := lock } := by
    intro c lock hc
    have hf := hc.frame
    refine ⟨fun hp => ?_, ?_⟩
    · rw [hf.rx, hf.closed]
      exact h.drained hp
    · rw [hf.taken, hf.closed]
      exact h.closing
  obtain ⟨l', hl'⟩ | ⟨p, hp⟩ := withPanics_step hs
  · have hl' : s.step cfg l' = some s' := hl'
    have hd := drained_step h.drained hl'
    cases move hl' with
    | take item rx hpc => exact tracked_body h hpc item rx
    | start i c _ hc => exact htask c _ (.start hc)
    | finish i resp c _ hc => exact htask c _ (.finish hc)
    | send i c hc => exact htask c _ (.send hc)
    | _ => exact ⟨hd, h.closing⟩
  · obtain ⟨i, c, -, -, hc, rfl⟩ | ⟨-, hpc, rfl⟩ := panic_cases hp
    · exact htask c _ (.panic hc)
    · exact ⟨by rintro ⟨⟩, fun _ => rfl⟩

/-- At rest: the tasks are over, nobody has the mutex, and the loop waits for an item that is not
there or is over. -/
structure Rested (s : SynchronizedBatched M R E) : Prop where
  tasks : s.core.Done
  free : s.lock = []
  loop : s.core.rx = [] ∧ (s.pc = .recv ∧ s.core.closed = false ∨ s.pc = .ended) ∨ s.pc = .aborted

/-- Whoever is first in line can go on, so nobody is. -/
theorem lock_of_quiet (hqueue : Queued s)
    (hq : (withPanics (batchSynchronizedPoller M R E cfg) panic).Quiet own s) : s.lock = [] := by
  have hno : ∀ l, own (.run (.inl l)) = true → s.run cfg l = none := fun l => hq (.run (.inl l))
  rcases hlock : s.lock with _ | ⟨x, lock⟩
  · rfl
  have hhead : s.lock.head? = some x := by rw [hlock]; rfl
  have hmem : x ∈ s.lock := by rw [hlock]; exact List.mem_cons_self
  exfalso
  rcases x with i | _ | _
  · obtain ⟨⟨batch, stage⟩, hi, hphase⟩ := hqueue.task i hmem
    rcases stage with _ | _ | evs
    · have := hno (.start i) rfl
      simp [run, hhead, BatchCore.startTask, hi] at this
    · have := hq (.run (.inr (.task i))) rfl
      simp [withPanics, panic, hhead, BatchCore.panicTask, hi] at this
    · exact hphase rfl
  · rcases hqueue.sync hmem with hpc | hpc
    · have := hno .startSync rfl
      simp [run, hpc, hhead] at this
    · have := hq (.run (.inr .sync)) rfl
      simp [withPanics, panic, hpc] at this
  · have := hno .otherDone rfl
    simp [run, hhead] at this

theorem rested_of_quiet (hqueue : Queued s) (h : Tracked s)
    (hq : (withPanics (batchSynchronizedPoller M R E cfg) panic).Quiet own s) : Rested s := by
  have hno : ∀ l, own (.run (.inl l)) = true → s.run cfg l = none := fun l => hq (.run (.inl l))
  have hlock := lock_of_quiet hqueue hq
  refine ⟨fun t ht => ?_, hlock, ?_⟩
  · obtain ⟨i, hi⟩ := List.getElem?_of_mem ht
    obtain ⟨batch, stage⟩ := t
    rcases stage with _ | _ | ⟨_ | ⟨ev, evs⟩⟩
    · have := hno (.ask i) rfl
      simp [run, hi, hlock] at this
    · have := hqueue.running i _ hi rfl
      rw [hlock] at this
      cases this
    · rfl
    · have := hno (.send i) rfl
      simp [run, BatchCore.sendTask, hi] at this
  · have hrecv := hno .recv rfl
    rcases hpc : s.pc with _ | _ | _ | _ | _ | _
    · rcases hrx : s.core.rx with _ | ⟨item, rx⟩
      · simpa [run, BatchCore.recv, hpc, hrx] using hrecv
      · simp [run, BatchCore.recv, hpc, hrx] at hrecv
    · have := hno .askSync rfl
      simp [run, hpc] at this
    · have := hqueue.waits hpc
      rw [hlock] at this
      cases this
    · have := hqueue.syncing hpc
      rw [hlock] at this
      cases this
    · simp [(h.drained hpc).1]
    · simp

/-- What every reachable state keeps. -/
structure Kept (cfg : SynchronizedBatchedConfig) (s : SynchronizedBatched M R E) : Prop where
  queued : Queued s
  tracked : Tracked s
  splits : Splits cfg s

theorem kept_step {l : PollerLabel M (SynchronizedBatchedLabel R E ⊕ Panic)} (h : Kept cfg s)
    (hs : (withPanics (batchSynchronizedPoller M R E cfg) panic).step s l = some s') :
    Kept cfg s' := by
  have ht := tracked_step h.tracked hs
  obtain ⟨l', hl'⟩ | ⟨p, hp⟩ := withPanics_step hs
  · exact ⟨queued_step h.queued hl', ht, splits_step h.splits hl'⟩
  · refine ⟨queued_panic h.queued hp, ht, ?_⟩
    obtain ⟨i, c, -, -, hc, rfl⟩ | ⟨-, -, rfl⟩ := panic_cases hp
    · exact h.splits.task (.panic hc) _
    · exact h.splits

theorem tracked_start : Tracked (start cfg : SynchronizedBatched M R E) :=
  ⟨drained_start, by rintro ⟨⟩⟩

theorem kept_of_reachable
    (hr : (withPanics (batchSynchronizedPoller M R E cfg) panic).Reachable s) : Kept cfg s :=
  Lts.invariant ⟨.start, tracked_start, splits_start⟩ (fun _ _ _ => kept_step) hr

theorem settles_panics
    (hr : (withPanics (batchSynchronizedPoller M R E cfg) panic).Reachable s) :
    (withPanics (batchSynchronizedPoller M R E cfg) panic).Settles own s.work Rested s := by
  refine Lts.settles_of_work (J := Kept cfg) ?_ (fun s h hq => ?_) (kept_of_reachable hr)
  · exact fun s l s' h hown hs => ⟨kept_step h hs, work_run h.queued hown hs⟩
  · exact rested_of_quiet h.queued h.tracked hq

/-- The same of the poller whose handlers return. -/
def ownReturning : PollerLabel M (SynchronizedBatchedLabel R E) → Bool
  | .push _ | .run .askOther => false
  | _ => true

/-- What a handler may panic in it may return from. -/
theorem quiet_withPanics
    (hq : (batchSynchronizedPoller M R E cfg).Quiet ownReturning s) :
    (withPanics (batchSynchronizedPoller M R E cfg) panic).Quiet own s := by
  rintro (item | l | p) hown
  · cases hown
  · refine hq (.run l) ?_
    cases l with
    | askOther => cases hown
    | _ => rfl
  · show s.panic p = none
    by_contra hne
    obtain ⟨s', hs'⟩ := Option.ne_none_iff_exists'.1 hne
    obtain ⟨i, c, -, hhead, hc, -⟩ | ⟨-, hpc, -⟩ := panic_cases hs'
    · obtain ⟨batch, hi, -⟩ := BatchCore.panicTask_eq_some hc
      have : s.run cfg (.finish i (.ok [])) = none := hq (.run (.finish i (.ok []))) rfl
      simp [run, hhead, BatchCore.finishTask, hi] at this
    · have : s.run cfg (.syncDone (.ok ())) = none := hq (.run (.syncDone (.ok ()))) rfl
      simp [run, hpc] at this

/-- With handlers that return, a loop at rest owes an answer only to what it buffers. -/
theorem settles_returning (hr : (batchSynchronizedPoller M R E cfg).Reachable s) :
    (batchSynchronizedPoller M R E cfg).Settles ownReturning s.work
      (fun s => Rested s ∧ s.core.AnsweredButBuffered cfg.batchSize) s := by
  refine Lts.settles_of_work (J := (batchSynchronizedPoller M R E cfg).Reachable) ?_ ?_ hr
  · rintro s (item | l) s' hr hown hs
    · cases hown
    · have hk := kept_of_reachable (reachable_withPanics hr)
      refine ⟨hr.step hs, @work_run _ _ _ cfg _ _ (.run (.inl l)) hk.queued ?_ hs⟩
      cases l with
      | askOther => cases hown
      | _ => rfl
  · intro s hr hq
    have hk := kept_of_reachable (reachable_withPanics hr)
    have hrest := rested_of_quiet hk.queued hk.tracked (quiet_withPanics hq)
    have hc : s.core.Conserved :=
      Lts.invariant (J := fun s => s.core.Conserved) .start (fun _ _ _ => conserved_step) hr
    exact ⟨hrest, hc.answeredButBuffered hk.splits hrest.tasks⟩

end SynchronizedBatched

/-- A `BufferUnorderedBatched` poller left alone always comes to rest, and where its handlers
return with no message it took without its `Response` but those in its buffer, exactly where it has
a permit to give or does not get to its loop. -/
theorem buffer_unordered_batched_settles_iff (M R E : Type) (m : M)
    (cfg : BufferUnorderedBatchedConfig) :
    ((∀ s, (withPanics (bufferUnorderedBatchPoller M R E cfg)
          (BufferUnorderedBatched.panic cfg)).Reachable s →
        (withPanics (bufferUnorderedBatchPoller M R E cfg)
          (BufferUnorderedBatched.panic cfg)).Settles PollerLabel.own s.work
            BufferUnorderedBatched.Rested s)
      ∧ ∀ s, (bufferUnorderedBatchPoller M R E cfg).Reachable s →
        (bufferUnorderedBatchPoller M R E cfg).Settles PollerLabel.own s.work
          (fun s => s.Rested ∧ s.core.AnsweredButBuffered cfg.batchSize) s)
      ↔ 1 ≤ cfg.maxParallel ∨ ¬ cfg.Starts := by
  constructor
  · rintro ⟨-, h⟩
    by_contra hcfg
    rw [not_or, not_not] at hcfg
    obtain ⟨s, hr, hq, hrest⟩ :=
      @BufferUnorderedBatched.stuck M R E cfg (by omega) hcfg.2 m
    exact hrest ((h s hr).of_quiet hq).1
  · exact fun hcfg => ⟨fun s => BufferUnorderedBatched.settles_panics hcfg,
      fun s => BufferUnorderedBatched.settles_returning hcfg⟩

/-- A `SynchronizedBatched` poller left alone always comes to rest, once the others in line for the
mutex have had it, and where its handlers return with no message it took without its `Response` but
those in its buffer. -/
theorem synchronized_batched_settles (M R E : Type) (cfg : SynchronizedBatchedConfig) :
    (∀ s, (withPanics (batchSynchronizedPoller M R E cfg)
          SynchronizedBatched.panic).Reachable s →
        (withPanics (batchSynchronizedPoller M R E cfg)
          SynchronizedBatched.panic).Settles SynchronizedBatched.own s.work
            SynchronizedBatched.Rested s)
      ∧ ∀ s, (batchSynchronizedPoller M R E cfg).Reachable s →
        (batchSynchronizedPoller M R E cfg).Settles SynchronizedBatched.ownReturning s.work
          (fun s => s.Rested ∧ s.core.AnsweredButBuffered cfg.batchSize) s :=
  ⟨fun _ => SynchronizedBatched.settles_panics, fun _ => SynchronizedBatched.settles_returning⟩

end MessageBus
