import MessageBus.Lib.Pool
import MessageBus.Proofs.BatchSplit

/-!
# What a batched poller has done when it ends

A task answers each of its mids once and hands its messages over once (`Conserved`), so an ended
poller whose tasks are done has answered exactly its batches. What was in the buffer when the loop
ended is in none of them, and a poller that did not get to its loop has answered nothing.
-/

namespace MessageBus

open Batching

variable {M R E : Type}

def Request.mid? : Request M → Option UInt64
  | .request mid _ _ => some mid
  | .action _ => none

/-- The requests after the last `Flush` of the sequence. -/
def sinceFlushCount (items : List (Request M)) : ℕ :=
  (sinceFlush (items.filterMap Request.cmd?)).length

section Events

theorem mids_batchAnswers : ∀ (mids : List (UInt64 × Bool)) (re : List R),
    (batchAnswers mids re : List (Event R E)).filterMap Event.mid? = mids.map (·.1)
  | [], _ => rfl
  | (mid, _) :: mids, r :: re => by
    simp [batchAnswers, Event.mid?, mids_batchAnswers mids re]
  | (mid, _) :: mids, [] => by
    simp [batchAnswers, Event.mid?, mids_batchAnswers mids []]

/-- Whatever the handler returned, each mid is answered once, in order. -/
theorem mids_processBatchResult (resp : Except E (List R)) (mids : List (UInt64 × Bool)) :
    (processBatchResult resp mids).filterMap Event.mid? = mids.map (·.1) := by
  unfold processBatchResult
  split
  · exact mids_batchAnswers mids _
  · simp [List.filterMap_append, Event.mid?, List.filterMap_map, Function.comp_def]

end Events

/-- The mids a task has still to answer. -/
def BatchTask.unanswered (t : BatchTask M R E) : List UInt64 :=
  match t.stage with
  | .sending evs => evs.filterMap Event.mid?
  | _ => t.batch.mids.map (·.1)

/-- The messages a task has still to hand to the handler. -/
def BatchTask.unhandled (t : BatchTask M R E) : List M :=
  match t.stage with
  | .spawned => t.batch.msgs
  | _ => []

namespace BatchCore

/-- Answered or still to be answered, handed over or still to be: each exactly once. -/
structure Conserved (c : BatchCore M R E) : Prop where
  answered : (c.stx.filterMap Event.mid? ++ c.tasks.flatMap BatchTask.unanswered).Perm
    (c.batches.flatMap fun b => b.mids.map (·.1))
  handled : (c.handled.flatten ++ c.tasks.flatMap BatchTask.unhandled).Perm
    (c.batches.flatMap (·.msgs))

namespace Conserved

variable {c c' : BatchCore M R E}

theorem start : Conserved (start : BatchCore M R E) := ⟨.nil, .nil⟩

/-- Only the tasks and what they did count. -/
theorem congr (h : Conserved c) (ht : c'.tasks = c.tasks) (hs : c'.stx = c.stx)
    (hh : c'.handled = c.handled) : Conserved c' := by
  obtain ⟨ha, hm⟩ := h
  constructor
  · simpa only [batches, ht, hs] using ha
  · simpa only [batches, ht, hh] using hm

theorem emit (h : Conserved c) {ev : Event R E} (hev : ev.mid? = none) : Conserved (c.emit ev) where
  answered := by
    have : (c.emit ev).stx.filterMap Event.mid? = c.stx.filterMap Event.mid? := by
      simp [BatchCore.emit, hev]
    rw [this]
    exact h.answered
  handled := h.handled

theorem spawn (h : Conserved c) (batch : Batch M) : Conserved (c.spawn batch) where
  answered := by
    rw [batches_spawn]
    simp only [BatchCore.spawn, List.flatMap_append, List.flatMap_singleton, ← List.append_assoc]
    exact h.answered.append_right _
  handled := by
    rw [batches_spawn]
    simp only [BatchCore.spawn, List.flatMap_append, List.flatMap_singleton, ← List.append_assoc]
    exact h.handled.append_right _

theorem startTask (h : Conserved c) {i : ℕ} (hs : c.startTask i = some c') : Conserved c' := by
  obtain ⟨batch, hi, rfl⟩ := startTask_eq_some hs
  constructor
  · have := Pool.perm_flatMap_set BatchTask.unanswered ⟨batch, .handling⟩ hi
    have := (List.perm_append_right_iff _).1 this
    simp only [batches, batches_set hi]
    exact (this.append_left _).trans h.answered
  · have := Pool.perm_flatMap_set BatchTask.unhandled ⟨batch, .handling⟩ hi
    simp only [BatchTask.unhandled, List.append_nil] at this
    simp only [batches, batches_set hi, List.flatten_append, List.flatten_singleton,
      List.append_assoc]
    exact ((List.perm_append_comm.trans this).append_left _).trans h.handled

theorem finishTask (h : Conserved c) {i : ℕ} {resp : Except E (List R)}
    (hs : c.finishTask i resp = some c') : Conserved c' := by
  obtain ⟨batch, hi, rfl⟩ := finishTask_eq_some hs
  constructor
  · have := Pool.perm_flatMap_set BatchTask.unanswered
      ⟨batch, .sending (processBatchResult resp batch.mids)⟩ hi
    simp only [BatchTask.unanswered, mids_processBatchResult] at this
    have := (List.perm_append_right_iff _).1 this
    simp only [batches, batches_set hi]
    exact (this.append_left _).trans h.answered
  · have := Pool.perm_flatMap_set BatchTask.unhandled
      ⟨batch, .sending (processBatchResult resp batch.mids)⟩ hi
    have := (List.perm_append_right_iff _).1 this
    simp only [batches, batches_set hi]
    exact (this.append_left _).trans h.handled

theorem sendTask (h : Conserved c) {i : ℕ} (hs : c.sendTask i = some c') : Conserved c' := by
  obtain ⟨batch, ev, evs, hi, rfl⟩ := sendTask_eq_some hs
  constructor
  · have := Pool.perm_flatMap_set BatchTask.unanswered ⟨batch, .sending evs⟩ hi
    have hold : BatchTask.unanswered (⟨batch, .sending (ev :: evs)⟩ : BatchTask M R E)
        = [ev].filterMap Event.mid? ++ evs.filterMap Event.mid? := by
      rw [← List.filterMap_append]
      rfl
    rw [hold, ← List.append_assoc] at this
    have := (List.perm_append_right_iff _).1 this
    simp only [batches, BatchCore.emit, batches_set hi, List.filterMap_append, List.append_assoc]
    exact ((List.perm_append_comm.trans this).append_left _).trans h.answered
  · have := Pool.perm_flatMap_set BatchTask.unhandled ⟨batch, .sending evs⟩ hi
    have := (List.perm_append_right_iff _).1 this
    simp only [batches, BatchCore.emit, batches_set hi]
    exact (this.append_left _).trans h.handled

end Conserved

/-- Every task has returned and sent all its events. -/
def Done (c : BatchCore M R E) : Prop := ∀ t ∈ c.tasks, t.stage = .sending []

/-- Every accepted message was handed to the handler in exactly one batch, and has exactly one
`Response`. -/
def Answered (c : BatchCore M R E) : Prop :=
  c.handled.flatten.Perm (c.accepted.filterMap Request.msg?)
    ∧ (c.stx.filterMap Event.mid?).Perm (c.accepted.filterMap Request.mid?)

theorem Conserved.of_done {c : BatchCore M R E} (h : Conserved c) (hd : c.Done) :
    (c.stx.filterMap Event.mid?).Perm (c.batches.flatMap fun b => b.mids.map (·.1))
      ∧ c.handled.flatten.Perm (c.batches.flatMap (·.msgs)) := by
  have hu : c.tasks.flatMap BatchTask.unanswered = [] := by
    refine List.flatMap_eq_nil_iff.2 fun t ht => ?_
    simp [BatchTask.unanswered, hd t ht]
  have hm : c.tasks.flatMap BatchTask.unhandled = [] := by
    refine List.flatMap_eq_nil_iff.2 fun t ht => ?_
    simp [BatchTask.unhandled, hd t ht]
  refine ⟨?_, ?_⟩
  · simpa [hu] using h.answered
  · simpa [hm] using h.handled

theorem mids_accepted (items : List (Request M)) : items.filterMap Request.mid?
    = ((items.filterMap Request.cmd?).filterMap Cmd.put?).map (·.1.1) := by
  rw [List.filterMap_filterMap, List.map_filterMap]
  refine List.filterMap_congr fun item _ => ?_
  rcases item with a | ⟨mid, msg, req⟩
  · cases a <;> rfl
  · rfl

theorem msgs_accepted (items : List (Request M)) : items.filterMap Request.msg?
    = ((items.filterMap Request.cmd?).filterMap Cmd.put?).map (·.2) := by
  rw [List.filterMap_filterMap, List.map_filterMap]
  refine List.filterMap_congr fun item _ => ?_
  rcases item with a | ⟨mid, msg, req⟩
  · cases a <;> rfl
  · rfl

/-- Where nothing was taken off the queue, only a queue without messages is answered. -/
theorem Untouched.answered_iff {c : BatchCore M R E} (h : c.Untouched) :
    c.Answered ↔ c.accepted.filterMap Request.mid? = [] := by
  have hhandled : c.handled = [] := by rw [h]; rfl
  have hstx : c.stx = [] := by rw [h]; rfl
  rw [Answered, hhandled, hstx, mids_accepted, msgs_accepted]
  simp

/-- With the queue empty and the tasks done, only the buffer is unanswered. -/
theorem answered_iff {c : BatchCore M R E} {b : ℕ} (hs : Shows b c.batches c.buffered c.taken)
    (hc : Conserved c) (hrx : c.rx = []) (hd : c.Done) :
    c.Answered ↔ sinceFlushCount c.accepted % max 1 b = 0 := by
  obtain ⟨hst, hh⟩ := hc.of_done hd
  have hacc : c.accepted = c.taken := by simp [accepted, hrx]
  obtain ⟨hbatch, -⟩ := hs
  rw [sinceFlushCount, ← length_buffer_split, Answered, mids_accepted, msgs_accepted, hacc,
    ← flatten_split b, List.length_eq_zero_iff]
  generalize split b (c.taken.filterMap Request.cmd?) = sp at hbatch ⊢
  have hmids : c.batches.flatMap (fun b => b.mids.map (·.1)) = sp.batches.flatten.map (·.1.1) := by
    simp [hbatch, Batch.of, List.flatMap_def, List.map_flatten, Function.comp_def]
  have hmsgs : c.batches.flatMap (·.msgs) = sp.batches.flatten.map (·.2) := by
    simp [hbatch, Batch.of, List.flatMap_def, List.map_flatten, Function.comp_def]
  rw [hmids] at hst
  rw [hmsgs] at hh
  constructor
  · rintro ⟨-, h⟩
    have := (hst.symm.trans h).length_eq
    simp only [List.length_map, List.length_append] at this
    exact List.length_eq_zero_iff.1 (by omega)
  · intro h
    rw [h, List.append_nil]
    exact ⟨hh, hst⟩

end BatchCore

namespace BufferUnorderedBatched

variable {cfg : BufferUnorderedBatchedConfig} {s s' : BufferUnorderedBatched M R E}
  {l : PollerLabel M (BufferUnorderedBatchedLabel R E)}

theorem conserved_body (h : s.core.Conserved) (item : Request M) :
    (body cfg s item).core.Conserved := by
  rcases item with a | ⟨mid, msg, req⟩
  · rcases a with _ | _ | _ | _ | _
    · exact h.emit rfl
    · simp only [body]
      split_ifs
      · exact h
      · exact h.congr rfl rfl rfl
    · exact h
    · exact h.congr rfl rfl rfl
    · exact h
  · exact h.congr rfl rfl rfl

theorem conserved_step (h : s.core.Conserved) (hs : s.step cfg l = some s') :
    s'.core.Conserved := by
  cases move hs with
  | push item => exact h.congr rfl rfl rfl
  | take item rx =>
    exact conserved_body (s := { s with core.rx := rx, core.taken := _ }) (h.congr rfl rfl rfl) item
  | ends => exact h
  | dispatch => exact BatchCore.Conserved.spawn (c := s.core.drain) (h.congr rfl rfl rfl) _
  | flushDispatch batch => exact h.spawn batch
  | flushed => exact h.emit rfl
  | sync => exact h
  | synced => exact h.emit rfl
  | start i c hc => exact h.startTask hc
  | finish i resp c hc => exact h.finishTask hc
  | send i c hc => exact h.sendTask hc

theorem pc_body (hpc : s.pc = .recv) (item : Request M) : (body cfg s item).pc ≠ .ended := by
  rcases item with a | ⟨mid, msg, req⟩
  · rcases a with _ | _ | _ | _ | _ <;> simp only [body]
    · simp [hpc]
    · split_ifs <;> simp
    · simp
    · simp [hpc]
    · simp
  · simp only [body]
    split_ifs <;> simp

/-- A loop that has ended has left nothing in the queue, and nothing comes in any more. -/
def Drained (s : BufferUnorderedBatched M R E) : Prop :=
  s.pc = .ended → s.core.rx = [] ∧ s.core.closed = true

theorem drained_step (h : Drained s) (hs : s.step cfg l = some s') : Drained s' := by
  have htask : ∀ {c : BatchCore M R E} {p : ℕ}, BatchCore.TaskStep s.core c →
      Drained { s with core := c, permits := p } := by
    intro c p hc hpc
    rw [hc.frame.rx, hc.frame.closed]
    exact h hpc
  cases move hs with
  | push item hclosed =>
    intro hpc
    rw [(h hpc).2] at hclosed
    cases hclosed
  | take item rx hpc =>
    exact fun hpc' =>
      absurd hpc' (pc_body (s := { s with core.rx := rx, core.taken := _ }) hpc item)
  | ends _ hrx hclosed => exact fun _ => ⟨hrx, hclosed⟩
  | dispatch hpc => exact nofun
  | flushDispatch batch hpc => exact nofun
  | flushed hpc => exact nofun
  | sync hpc => exact nofun
  | synced resp hpc => exact nofun
  | start i c hc => exact htask (.start hc)
  | finish i resp c hc => exact htask (.finish hc)
  | send i c hc => exact htask (.send hc)

theorem drained_start : Drained (start cfg : BufferUnorderedBatched M R E) := by
  unfold Drained start
  dsimp only
  split_ifs <;> exact nofun

/-- The loop is over, at the end of its queue or by a panic that is not for a `Stats`. -/
def Over (s : BufferUnorderedBatched M R E) : Prop :=
  s.pc = .ended ∨ s.pc = .aborted ∧ .action .stats ∉ s.core.taken

theorem answered_iff_of_ended (hr : (bufferUnorderedBatchPoller M R E cfg).Reachable s)
    (hpc : s.pc = .ended) (hd : s.core.Done) :
    s.core.Answered ↔ sinceFlushCount s.core.accepted % max 1 cfg.batchSize = 0 := by
  have hsplit : Splits cfg s := Lts.invariant splits_start (fun _ _ _ => splits_step) hr
  have hcons : s.core.Conserved :=
    Lts.invariant (J := fun s => s.core.Conserved) .start (fun _ _ _ => conserved_step) hr
  have hdrained : Drained s := Lts.invariant drained_start (fun _ _ _ => drained_step) hr
  unfold Splits shown at hsplit
  rw [hpc] at hsplit
  exact BatchCore.answered_iff hsplit hcons (hdrained hpc).1 hd

/-- Once the loop runs only a `Stats` makes it panic. -/
def Stopped (s : BufferUnorderedBatched M R E) : Prop :=
  s.pc = .aborted → .action .stats ∈ s.core.taken

theorem stopped_body (hpc : s.pc = .recv) (item : Request M) (rx : List (Request M)) :
    Stopped (body cfg { s with core.rx := rx, core.taken := s.core.taken ++ [item] } item) := by
  unfold Stopped
  rcases item with a | ⟨mid, msg, req⟩
  · rcases a with _ | _ | _ | _ | _ <;> simp only [body]
    · simp [hpc]
    · split_ifs <;> simp
    · simp
    · simp [hpc]
    · simp
  · simp only [body]
    split_ifs <;> simp

theorem stopped_step (h : Stopped s) (hs : s.step cfg l = some s') : Stopped s' := by
  have htask : ∀ {c : BatchCore M R E} {p : ℕ}, BatchCore.TaskStep s.core c →
      Stopped { s with core := c, permits := p } := by
    intro c p hc hpc
    rw [hc.frame.taken]
    exact h hpc
  cases move hs with
  | push => exact h
  | take item rx hpc => exact stopped_body hpc item rx
  | start i c hc => exact htask (.start hc)
  | finish i resp c hc => exact htask (.finish hc)
  | send i c hc => exact htask (.send hc)
  | ends | dispatch | flushDispatch | flushed | sync | synced => exact nofun

theorem answered_iff (hr : (bufferUnorderedBatchPoller M R E cfg).Reachable s) (hover : s.Over)
    (hd : s.core.Done) :
    s.core.Answered ↔ if cfg.Starts then
      sinceFlushCount s.core.accepted % max 1 cfg.batchSize = 0
      else s.core.accepted.filterMap Request.mid? = [] := by
  split_ifs with hcfg
  · have hstopped : Stopped s := by
      refine Lts.invariant (fun hpc => ?_) (fun _ _ _ => stopped_step) hr
      simp [bufferUnorderedBatchPoller, start, hcfg] at hpc
    exact answered_iff_of_ended hr (hover.resolve_right fun h => h.2 (hstopped h.1)) hd
  · have hdead : Dead s := Lts.invariant (dead_start hcfg) (fun _ _ _ => dead_step) hr
    exact hdead.core.answered_iff

end BufferUnorderedBatched

namespace SynchronizedBatched

variable {cfg : SynchronizedBatchedConfig} {s s' : SynchronizedBatched M R E}
  {l : PollerLabel M (SynchronizedBatchedLabel R E)}

theorem conserved_body (h : s.core.Conserved) (item : Request M) :
    (body cfg s item).core.Conserved := by
  rcases item with a | ⟨mid, msg, req⟩
  · rcases a with _ | _ | _ | _ | _
    · exact h.emit rfl
    · simp only [body]
      split_ifs
      · exact h.emit rfl
      · exact (BatchCore.Conserved.spawn (c := s.core.drain) (h.congr rfl rfl rfl) _).emit rfl
    · exact h
    · exact h.congr rfl rfl rfl
    · exact h
  · simp only [body]
    split_ifs
    · refine BatchCore.Conserved.spawn (c := (s.core.bufferPush mid msg req).drain) ?_ _
      exact h.congr rfl rfl rfl
    · exact h.congr rfl rfl rfl

theorem conserved_step (h : s.core.Conserved) (hs : s.step cfg l = some s') :
    s'.core.Conserved := by
  cases move hs with
  | push item => exact h.congr rfl rfl rfl
  | take item rx =>
    exact conserved_body (s := { s with core.rx := rx, core.taken := _ }) (h.congr rfl rfl rfl) item
  | start i c _ hc => exact h.startTask hc
  | finish i resp c _ hc => exact h.finishTask hc
  | send i c hc => exact h.sendTask hc
  | synced => exact h.emit rfl
  | _ => exact h

theorem pc_body (hpc : s.pc = .recv) (item : Request M) : (body cfg s item).pc ≠ .ended := by
  rcases item with a | ⟨mid, msg, req⟩
  · rcases a with _ | _ | _ | _ | _ <;> simp [body, hpc]
  · simp [body, hpc]

/-- A loop that has ended has left nothing in the queue, and nothing comes in any more. -/
def Drained (s : SynchronizedBatched M R E) : Prop :=
  s.pc = .ended → s.core.rx = [] ∧ s.core.closed = true

theorem drained_step (h : Drained s) (hs : s.step cfg l = some s') : Drained s' := by
  have htask : ∀ {c : BatchCore M R E} {lock : List Holder}, BatchCore.TaskStep s.core c →
      Drained { s with core := c, lock := lock } := by
    intro c lock hc hpc
    rw [hc.frame.rx, hc.frame.closed]
    exact h hpc
  cases move hs with
  | push item hclosed =>
    intro hpc
    rw [(h hpc).2] at hclosed
    cases hclosed
  | take item rx hpc =>
    exact fun hpc' =>
      absurd hpc' (pc_body (s := { s with core.rx := rx, core.taken := _ }) hpc item)
  | ends _ hrx hclosed => exact fun _ => ⟨hrx, hclosed⟩
  | start i c _ hc => exact htask (.start hc)
  | finish i resp c _ hc => exact htask (.finish hc)
  | send i c hc => exact htask (.send hc)
  | askSync => exact nofun
  | startSync => exact nofun
  | synced => exact nofun
  | _ => exact h

theorem drained_start : Drained (start cfg : SynchronizedBatched M R E) := by
  unfold Drained start
  dsimp only
  split_ifs <;> exact nofun

/-- The loop is over, at the end of its queue or by a panic that is not for a `Stats`. -/
def Over (s : SynchronizedBatched M R E) : Prop :=
  s.pc = .ended ∨ s.pc = .aborted ∧ .action .stats ∉ s.core.taken

theorem answered_iff_of_ended (hr : (batchSynchronizedPoller M R E cfg).Reachable s)
    (hpc : s.pc = .ended) (hd : s.core.Done) :
    s.core.Answered ↔ sinceFlushCount s.core.accepted % max 1 cfg.batchSize = 0 := by
  have hsplit : Splits cfg s := Lts.invariant splits_start (fun _ _ _ => splits_step) hr
  have hcons : s.core.Conserved :=
    Lts.invariant (J := fun s => s.core.Conserved) .start (fun _ _ _ => conserved_step) hr
  have hdrained : Drained s := Lts.invariant drained_start (fun _ _ _ => drained_step) hr
  exact BatchCore.answered_iff hsplit hcons (hdrained hpc).1 hd

/-- Once the loop runs only a `Stats` makes it panic. -/
def Stopped (s : SynchronizedBatched M R E) : Prop :=
  s.pc = .aborted → .action .stats ∈ s.core.taken

theorem stopped_body (hpc : s.pc = .recv) (item : Request M) (rx : List (Request M)) :
    Stopped (body cfg { s with core.rx := rx, core.taken := s.core.taken ++ [item] } item) := by
  unfold Stopped
  rcases item with a | ⟨mid, msg, req⟩
  · rcases a with _ | _ | _ | _ | _ <;> simp [body, hpc]
  · simp [body, hpc]

theorem stopped_step (h : Stopped s) (hs : s.step cfg l = some s') : Stopped s' := by
  have htask : ∀ {c : BatchCore M R E} {lock : List Holder}, BatchCore.TaskStep s.core c →
      Stopped { s with core := c, lock := lock } := by
    intro c lock hc hpc
    rw [hc.frame.taken]
    exact h hpc
  cases move hs with
  | take item rx hpc => exact stopped_body hpc item rx
  | start i c _ hc => exact htask (.start hc)
  | finish i resp c _ hc => exact htask (.finish hc)
  | send i c hc => exact htask (.send hc)
  | ends | askSync | startSync | synced => exact nofun
  | push | ask | askOther | otherDone => exact h

theorem answered_iff (hr : (batchSynchronizedPoller M R E cfg).Reachable s) (hover : s.Over)
    (hd : s.core.Done) :
    s.core.Answered ↔ if cfg.Starts then
      sinceFlushCount s.core.accepted % max 1 cfg.batchSize = 0
      else s.core.accepted.filterMap Request.mid? = [] := by
  split_ifs with hcfg
  · have hstopped : Stopped s := by
      refine Lts.invariant (fun hpc => ?_) (fun _ _ _ => stopped_step) hr
      simp [batchSynchronizedPoller, start, hcfg] at hpc
    exact answered_iff_of_ended hr (hover.resolve_right fun h => h.2 (hstopped h.1)) hd
  · have hdead : Dead s := Lts.invariant (dead_start hcfg) (fun _ _ _ => dead_step) hr
    exact hdead.core.answered_iff

end SynchronizedBatched

/-- A batched poller that is over, with its tasks done, has answered every accepted message exactly
when the messages after the last `Flush` fill their batches; where it does not get to its loop,
only when there is none. -/
theorem ended_answered_iff (M R E : Type) :
    (∀ cfg s, (bufferUnorderedBatchPoller M R E cfg).Reachable s → s.Over → s.core.Done →
      (s.core.Answered ↔ if cfg.Starts then
        sinceFlushCount s.core.accepted % max 1 cfg.batchSize = 0
        else s.core.accepted.filterMap Request.mid? = []))
    ∧ ∀ cfg s, (batchSynchronizedPoller M R E cfg).Reachable s → s.Over → s.core.Done →
      (s.core.Answered ↔ if cfg.Starts then
        sinceFlushCount s.core.accepted % max 1 cfg.batchSize = 0
        else s.core.accepted.filterMap Request.mid? = []) :=
  ⟨fun _ _ hr hover hd => BufferUnorderedBatched.answered_iff hr hover hd,
    fun _ _ hr hover hd => SynchronizedBatched.answered_iff hr hover hd⟩

/-- Batches of two: a message and a `Flush`, two more messages, then `Close`. -/
theorem full_batch_answered :
    let items : List (Request Unit) := [.request 1 () false, .action .flush, .request 2 () true,
      .request 3 () false, .action .close]
    (∃ s, (bufferUnorderedBatchPoller Unit Unit Unit ⟨2, 2, 0⟩).Reachable s ∧ s.pc = .ended
      ∧ s.core.accepted = items ∧ s.core.Answered)
    ∧ ∃ s, (batchSynchronizedPoller Unit Unit Unit ⟨2, 0⟩).Reachable s ∧ s.pc = .ended
      ∧ s.core.accepted = items ∧ s.core.Answered := by
  intro items
  constructor
  · have hrun : (bufferUnorderedBatchPoller Unit Unit Unit ⟨2, 2, 0⟩).run (items.map .push ++
        [.run .recv, .run .recv, .run .acquire, .run (.start 0), .run (.finish 0 (.ok [])),
          .run .acquire, .run .recv, .run .recv, .run .acquire, .run (.start 1),
          .run (.finish 1 (.ok [(), ()])), .run (.send 0), .run (.send 1), .run (.send 1),
          .run .recv, .run .recv])
        = some ⟨⟨[], true, [], [], [⟨⟨[(1, false)], [()]⟩, .sending []⟩,
          ⟨⟨[(2, true), (3, false)], [(), ()]⟩, .sending []⟩],
          [.flushed, .response 1 (.error .noResponse), .response 2 (.ok ()), .response 3 (.ok ())],
          items, [[()], [(), ()]]⟩, .ended, 2⟩ := rfl
    have hr := Lts.reachable_of_run hrun
    exact ⟨_, hr, rfl, rfl, ((ended_answered_iff Unit Unit Unit).1 ⟨2, 2, 0⟩ _ hr (.inl rfl)
      (List.forall_mem_cons.2 ⟨rfl, List.forall_mem_singleton.2 rfl⟩)).2 (by decide)⟩
  · have hrun : (batchSynchronizedPoller Unit Unit Unit ⟨2, 0⟩).run (items.map .push ++
        [.run .recv, .run .recv, .run .recv, .run .recv, .run (.ask 1), .run (.start 1),
          .run (.finish 1 (.error ())), .run (.ask 0), .run (.start 0),
          .run (.finish 0 (.ok [()])), .run (.send 0), .run (.send 1), .run (.send 1),
          .run (.send 1), .run .recv, .run .recv])
        = some ⟨⟨[], true, [], [], [⟨⟨[(1, false)], [()]⟩, .sending []⟩,
          ⟨⟨[(2, true), (3, false)], [(), ()]⟩, .sending []⟩],
          [.flushed, .response 1 (.ok ()), .response 2 (.error (.other ())),
            .response 3 (.error (.other ())), .error (.other ())],
          items, [[(), ()], [()]]⟩, .ended, []⟩ := rfl
    have hr := Lts.reachable_of_run hrun
    exact ⟨_, hr, rfl, rfl, ((ended_answered_iff Unit Unit Unit).2 ⟨2, 0⟩ _ hr (.inl rfl)
      (List.forall_mem_cons.2 ⟨rfl, List.forall_mem_singleton.2 rfl⟩)).2 (by decide)⟩

/-- One message in batches of two, then `Close`: the message stays in the buffer. -/
theorem partial_batch_lost :
    (¬ ∀ s, (bufferUnorderedBatchPoller Unit Unit Unit ⟨1, 2, 0⟩).Reachable s → s.pc = .ended →
      s.core.Done → s.core.Answered)
    ∧ ¬ ∀ s, (batchSynchronizedPoller Unit Unit Unit ⟨2, 0⟩).Reachable s → s.pc = .ended →
      s.core.Done → s.core.Answered := by
  constructor
  · intro h
    have hr : (bufferUnorderedBatchPoller Unit Unit Unit ⟨1, 2, 0⟩).run
        [.push (.request 1 () false), .push (.action .close), .run .recv, .run .recv, .run .recv]
        = some ⟨⟨[], true, [(1, false)], [()], [], [], [.request 1 () false, .action .close], []⟩,
          .ended, 1⟩ := rfl
    have := (h _ (Lts.reachable_of_run hr) rfl (List.forall_mem_nil _)).2.length_eq
    cases this
  · intro h
    have hr : (batchSynchronizedPoller Unit Unit Unit ⟨2, 0⟩).run
        [.push (.request 1 () false), .push (.action .close), .run .recv, .run .recv, .run .recv]
        = some ⟨⟨[], true, [(1, false)], [()], [], [], [.request 1 () false, .action .close], []⟩,
          .ended, []⟩ := rfl
    have := (h _ (Lts.reachable_of_run hr) rfl (List.forall_mem_nil _)).2.length_eq
    cases this

end MessageBus
