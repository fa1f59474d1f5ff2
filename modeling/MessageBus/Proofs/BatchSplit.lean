import MessageBus.Batched
import MessageBus.Lib.Batching
import MessageBus.Lib.Pool

/-!
# The batches of a poller

At every point of a batched loop the batches it has spawned, or is about to, and its buffer are the
split of the items it has taken off the queue (`BufferUnorderedBatched.shows`,
`SynchronizedBatched.shows`). A step of a task changes none of that (`BatchCore.Frame`). A poller
that has panicked before its loop only has its queue grow (`Dead`).
-/

namespace MessageBus

open Batching

variable {M R E : Type}

/-- What an item is to the batcher; the other actions pass it by. -/
def Request.cmd? : Request M → Option (Cmd ((UInt64 × Bool) × M))
  | .request mid msg req => some (.put ((mid, req), msg))
  | .action .flush => some .flush
  | .action _ => none

def Batch.of (l : List ((UInt64 × Bool) × M)) : Batch M := ⟨l.map (·.1), l.map (·.2)⟩

/-- The batches and the buffer are the split of the items taken. -/
def Shows (b : ℕ) (batches : List (Batch M)) (buffer : Batch M) (taken : List (Request M)) : Prop :=
  batches = (split b (taken.filterMap Request.cmd?)).batches.map Batch.of
    ∧ buffer = Batch.of (split b (taken.filterMap Request.cmd?)).buffer

namespace Shows

variable {b : ℕ} {batches : List (Batch M)} {buffer : Batch M} {taken : List (Request M)}

theorem nil : Shows b [] ⟨[], []⟩ ([] : List (Request M)) := ⟨rfl, rfl⟩

theorem request_full (h : Shows b batches buffer taken) (mid : UInt64) (msg : M) (req : Bool)
    (hb : b ≤ (buffer.mids ++ [(mid, req)]).length) :
    Shows b (batches ++ [⟨buffer.mids ++ [(mid, req)], buffer.msgs ++ [msg]⟩]) ⟨[], []⟩
      (taken ++ [.request mid msg req]) := by
  obtain ⟨rfl, rfl⟩ := h
  simp only [Batch.of, List.length_append, List.length_map, List.length_singleton] at hb
  simp [Shows, Batch.of, Request.cmd?, split_concat, feed, hb]

theorem request_part (h : Shows b batches buffer taken) (mid : UInt64) (msg : M) (req : Bool)
    (hb : ¬ b ≤ (buffer.mids ++ [(mid, req)]).length) :
    Shows b batches ⟨buffer.mids ++ [(mid, req)], buffer.msgs ++ [msg]⟩
      (taken ++ [.request mid msg req]) := by
  obtain ⟨rfl, rfl⟩ := h
  simp only [Batch.of, List.length_append, List.length_map, List.length_singleton] at hb
  simp [Shows, Batch.of, Request.cmd?, split_concat, feed, hb]

theorem flush_empty (h : Shows b batches buffer taken) (hb : buffer.mids.isEmpty = true) :
    Shows b batches buffer (taken ++ [.action .flush]) := by
  obtain ⟨rfl, rfl⟩ := h
  simp only [Batch.of, List.isEmpty_map] at hb
  simp [Shows, Request.cmd?, split_concat, feed, hb]

theorem flush_part (h : Shows b batches buffer taken) (hb : ¬ buffer.mids.isEmpty = true) :
    Shows b (batches ++ [buffer]) ⟨[], []⟩ (taken ++ [.action .flush]) := by
  obtain ⟨rfl, rfl⟩ := h
  simp only [Batch.of, List.isEmpty_map] at hb
  simp [Shows, Batch.of, Request.cmd?, split_concat, feed, hb]

theorem action (h : Shows b batches buffer taken) {a : Action} (ha : a ≠ .flush) :
    Shows b batches buffer (taken ++ [.action a]) := by
  have : Request.cmd? (.action a : Request M) = none := by
    cases a <;> first | rfl | exact absurd rfl ha
  simpa [Shows, List.filterMap_append, this] using h

end Shows

namespace BatchCore

/-- The batches of the tasks spawned so far. -/
def batches (c : BatchCore M R E) : List (Batch M) := c.tasks.map (·.batch)

/-- Nothing the loop itself looks at has changed. -/
structure Frame (c c' : BatchCore M R E) : Prop where
  rx : c'.rx = c.rx
  closed : c'.closed = c.closed
  bufferMid : c'.bufferMid = c.bufferMid
  buffer : c'.buffer = c.buffer
  taken : c'.taken = c.taken
  batches : c'.batches = c.batches

variable {c c' : BatchCore M R E}

theorem batches_spawn (batch : Batch M) : (c.spawn batch).batches = c.batches ++ [batch] := by
  simp [batches, spawn]

theorem batches_set {i : ℕ} {batch : Batch M} {stage : TaskStage R E}
    (h : c.tasks[i]? = some ⟨batch, stage⟩) (stage' : TaskStage R E) :
    (c.tasks.set i ⟨batch, stage'⟩).map (·.batch) = c.tasks.map (·.batch) :=
  Pool.map_set_of_eq h _ rfl

theorem startTask_eq_some {i : ℕ} (h : c.startTask i = some c') :
    ∃ batch, c.tasks[i]? = some ⟨batch, .spawned⟩
      ∧ c' = { c with
        tasks := c.tasks.set i ⟨batch, .handling⟩, handled := c.handled ++ [batch.msgs] } := by
  unfold startTask at h
  split at h
  · rename_i batch hi
    exact ⟨batch, hi, by simpa using h.symm⟩
  · cases h

theorem finishTask_eq_some {i : ℕ} {resp : Except E (List R)} (h : c.finishTask i resp = some c') :
    ∃ batch, c.tasks[i]? = some ⟨batch, .handling⟩
      ∧ c' = { c with
        tasks := c.tasks.set i ⟨batch, .sending (processBatchResult resp batch.mids)⟩ } := by
  unfold finishTask at h
  split at h
  · rename_i batch hi
    exact ⟨batch, hi, by simpa using h.symm⟩
  · cases h

theorem sendTask_eq_some {i : ℕ} (h : c.sendTask i = some c') :
    ∃ batch ev evs, c.tasks[i]? = some ⟨batch, .sending (ev :: evs)⟩
      ∧ c' = { c with tasks := c.tasks.set i ⟨batch, .sending evs⟩ }.emit ev := by
  unfold sendTask at h
  split at h
  · rename_i batch ev evs hi
    exact ⟨batch, ev, evs, hi, by simpa using h.symm⟩
  · cases h

theorem panicTask_eq_some {i : ℕ} (h : c.panicTask i = some c') :
    ∃ batch, c.tasks[i]? = some ⟨batch, .handling⟩
      ∧ c' = { c with tasks := c.tasks.set i ⟨batch, .sending []⟩ } := by
  unfold panicTask at h
  split at h
  · rename_i batch hi
    exact ⟨batch, hi, by simpa using h.symm⟩
  · cases h

/-- A task moves on. -/
inductive TaskStep (c c' : BatchCore M R E) : Prop
  | start {i : ℕ} (h : c.startTask i = some c')
  | finish {i : ℕ} {resp : Except E (List R)} (h : c.finishTask i resp = some c')
  | send {i : ℕ} (h : c.sendTask i = some c')
  | panic {i : ℕ} (h : c.panicTask i = some c')

theorem TaskStep.frame (h : TaskStep c c') : Frame c c' := by
  rcases h with h | h | h | h
  · obtain ⟨batch, hi, rfl⟩ := startTask_eq_some h
    exact ⟨rfl, rfl, rfl, rfl, rfl, batches_set hi _⟩
  · obtain ⟨batch, hi, rfl⟩ := finishTask_eq_some h
    exact ⟨rfl, rfl, rfl, rfl, rfl, batches_set hi _⟩
  · obtain ⟨batch, ev, evs, hi, rfl⟩ := sendTask_eq_some h
    exact ⟨rfl, rfl, rfl, rfl, rfl, batches_set hi _⟩
  · obtain ⟨batch, hi, rfl⟩ := panicTask_eq_some h
    exact ⟨rfl, rfl, rfl, rfl, rfl, batches_set hi _⟩

theorem of_tasks_nil (h : c.tasks = []) : ¬ TaskStep c c' := by
  intro hs
  rcases hs with hs | hs | hs | hs
  · simp [startTask, h] at hs
  · simp [finishTask, h] at hs
  · simp [sendTask, h] at hs
  · simp [panicTask, h] at hs

/-- There is nothing but what was pushed. -/
def Untouched (c : BatchCore M R E) : Prop := c = { start with rx := c.rx }

theorem Untouched.push (h : c.Untouched) (item : Request M) :
    ({ c with rx := c.rx ++ [item] } : BatchCore M R E).Untouched := by
  unfold Untouched at h ⊢
  rw [h]

theorem Untouched.not_taskStep (h : c.Untouched) : ¬ TaskStep c c' :=
  of_tasks_nil (by rw [h]; rfl)

theorem recv_eq_some {item : Option (Request M)} (h : c.recv = some (item, c')) :
    (∃ it rx, item = some it ∧ c.rx = it :: rx ∧ c' = { c with rx := rx, taken := c.taken ++ [it] })
      ∨ (item = none ∧ c.rx = [] ∧ c.closed = true ∧ c' = c) := by
  unfold recv at h
  split at h
  · rename_i it rx hrx
    obtain ⟨rfl, rfl⟩ := by simpa using h
    exact .inl ⟨it, rx, rfl, hrx, rfl⟩
  · rename_i hrx
    split_ifs at h with hc
    obtain ⟨rfl, rfl⟩ := by simpa using h
    exact .inr ⟨rfl, hrx, hc, rfl⟩

end BatchCore

namespace BufferUnorderedBatched

variable {cfg : BufferUnorderedBatchedConfig}

/-- Everything a step can do. -/
inductive Move (cfg : BufferUnorderedBatchedConfig) (s : BufferUnorderedBatched M R E) :
    PollerLabel M (BufferUnorderedBatchedLabel R E) → BufferUnorderedBatched M R E → Prop
  | push (item : Request M) : s.core.closed = false →
      Move cfg s (.push item) { s with core.rx := s.core.rx ++ [item] }
  | take (item : Request M) (rx : List (Request M)) : s.pc = .recv → s.core.rx = item :: rx →
      Move cfg s (.run .recv)
        (body cfg { s with core.rx := rx, core.taken := s.core.taken ++ [item] } item)
  | ends : s.pc = .recv → s.core.rx = [] → s.core.closed = true →
      Move cfg s (.run .recv) { s with pc := .ended }
  | dispatch : s.pc = .acquire → 1 ≤ s.permits →
      Move cfg s (.run .acquire) ⟨s.core.drain.spawn s.core.buffered, .recv, s.permits - 1⟩
  | flushDispatch (batch : Batch M) : s.pc = .flushAcquire batch → 1 ≤ s.permits →
      Move cfg s (.run .acquire) ⟨s.core.spawn batch, .flushAll, s.permits - 1⟩
  | flushed : s.pc = .flushAll → allPermits cfg ≤ s.permits →
      Move cfg s (.run .acquire) ⟨s.core.emit .flushed, .recv, s.permits⟩
  | sync : s.pc = .syncAll → allPermits cfg ≤ s.permits →
      Move cfg s (.run .acquire) ⟨s.core, .syncing, s.permits - allPermits cfg⟩
  | synced (resp : Except E Unit) : s.pc = .syncing →
      Move cfg s (.run (.syncDone resp))
        ⟨s.core.emit (.synchronized (resp.mapError .other)), .recv, s.permits + allPermits cfg⟩
  | start (i : ℕ) (c : BatchCore M R E) : s.core.startTask i = some c →
      Move cfg s (.run (.start i)) { s with core := c }
  | finish (i : ℕ) (resp : Except E (List R)) (c : BatchCore M R E) :
      s.core.finishTask i resp = some c →
      Move cfg s (.run (.finish i resp)) { s with core := c, permits := s.permits + 1 }
  | send (i : ℕ) (c : BatchCore M R E) : s.core.sendTask i = some c →
      Move cfg s (.run (.send i)) { s with core := c }

theorem move {s s' : BufferUnorderedBatched M R E}
    {l : PollerLabel M (BufferUnorderedBatchedLabel R E)} (h : s.step cfg l = some s') :
    Move cfg s l s' := by
  rcases l with item | l
  · obtain ⟨c, hc, rfl⟩ := Option.map_eq_some_iff.1 h
    unfold BatchCore.push at hc
    split_ifs at hc with hclosed
    cases hc
    exact .push item (by simpa using hclosed)
  · rcases l with _ | _ | resp | i | ⟨i, resp⟩ | i <;> simp only [step, run] at h
    · split at h
      · rename_i hpc
        obtain ⟨⟨it, c⟩, hc, rfl⟩ := Option.map_eq_some_iff.1 h
        obtain ⟨item, rx, rfl, hrx, rfl⟩ | ⟨rfl, hrx, hclosed, rfl⟩ := BatchCore.recv_eq_some hc
        · exact .take item rx hpc hrx
        · exact .ends hpc hrx hclosed
      · cases h
    · unfold acquire at h
      split at h
      · split_ifs at h with hp
        cases h
        exact .dispatch ‹_› hp
      · split_ifs at h with hp
        cases h
        exact .flushDispatch _ ‹_› hp
      · split_ifs at h with hp
        cases h
        exact .flushed ‹_› hp
      · split_ifs at h with hp
        cases h
        exact .sync ‹_› hp
      · cases h
    · split at h
      · cases h
        exact .synced resp ‹_›
      · cases h
    · obtain ⟨c, hc, rfl⟩ := Option.map_eq_some_iff.1 h
      exact .start i c hc
    · obtain ⟨c, hc, rfl⟩ := Option.map_eq_some_iff.1 h
      exact .finish i resp c hc
    · obtain ⟨c, hc, rfl⟩ := Option.map_eq_some_iff.1 h
      exact .send i c hc

/-- The batches spawned or about to be, and what stays buffered. -/
def shown (s : BufferUnorderedBatched M R E) : List (Batch M) × Batch M :=
  match s.pc with
  | .acquire => (s.core.batches ++ [s.core.buffered], ⟨[], []⟩)
  | .flushAcquire batch => (s.core.batches ++ [batch], s.core.buffered)
  | _ => (s.core.batches, s.core.buffered)

def Splits (cfg : BufferUnorderedBatchedConfig) (s : BufferUnorderedBatched M R E) : Prop :=
  Shows cfg.batchSize s.shown.1 s.shown.2 s.core.taken

theorem splits_start : Splits cfg (start cfg : BufferUnorderedBatched M R E) := by
  unfold Splits shown start
  dsimp only
  split_ifs <;> exact Shows.nil

/-- The poller has panicked before its loop. -/
structure Dead (s : BufferUnorderedBatched M R E) : Prop where
  pc : s.pc = .aborted
  core : s.core.Untouched

theorem dead_start (hcfg : ¬ cfg.Starts) :
    Dead (start cfg : BufferUnorderedBatched M R E) :=
  ⟨if_neg hcfg, rfl⟩

theorem dead_step {s s' : BufferUnorderedBatched M R E}
    {l : PollerLabel M (BufferUnorderedBatchedLabel R E)} (h : Dead s)
    (hs : s.step cfg l = some s') : Dead s' := by
  have hpc := h.pc
  cases move hs with
  | push item => exact ⟨hpc, h.core.push item⟩
  | take _ _ hp | ends hp | dispatch hp | flushDispatch _ hp | flushed hp | sync hp
    | synced _ hp =>
    rw [hpc] at hp
    cases hp
  | start i c hc => exact absurd (.start hc) h.core.not_taskStep
  | finish i resp c hc => exact absurd (.finish hc) h.core.not_taskStep
  | send i c hc => exact absurd (.send hc) h.core.not_taskStep

theorem splits_body {core : BatchCore M R E} {permits : ℕ} {rx : List (Request M)}
    (item : Request M) (h : Shows cfg.batchSize core.batches core.buffered core.taken) :
    Splits cfg (body cfg ⟨{ core with rx := rx, taken := core.taken ++ [item] }, .recv, permits⟩
      item) := by
  rcases item with a | ⟨mid, msg, req⟩
  · by_cases ha : a = .flush
    · subst ha
      simp only [body]
      split_ifs with hb
      · exact h.flush_empty hb
      · exact h.flush_part hb
    · have := h.action ha
      rcases a with _ | _ | _ | _ | _
      · exact this
      · exact absurd rfl ha
      · exact this
      · exact this
      · exact this
  · simp only [body]
    split_ifs with hb
    · exact h.request_full mid msg req hb
    · exact h.request_part mid msg req hb

theorem Splits.task {s : BufferUnorderedBatched M R E} (h : Splits cfg s) {c : BatchCore M R E}
    (hc : BatchCore.TaskStep s.core c) (permits : ℕ) :
    Splits cfg { s with core := c, permits := permits } := by
  have hf := hc.frame
  have : shown { s with core := c, permits := permits } = s.shown := by
    simp only [shown, BatchCore.buffered, hf.bufferMid, hf.buffer, hf.batches]
  simpa only [Splits, this, hf.taken] using h

theorem splits_step {s s' : BufferUnorderedBatched M R E}
    {l : PollerLabel M (BufferUnorderedBatchedLabel R E)} (h : Splits cfg s)
    (hs : s.step cfg l = some s') : Splits cfg s' := by
  have htask := @h.task
  unfold Splits shown at h
  cases move hs with
  | push item => exact h
  | take item rx hpc hrx =>
    rw [hpc] at h ⊢
    exact splits_body item h
  | ends hpc =>
    rw [hpc] at h
    exact h
  | dispatch hpc =>
    rw [hpc] at h
    show Shows _ (s.core.drain.spawn _).batches _ _
    rw [BatchCore.batches_spawn]
    exact h
  | flushDispatch batch hpc =>
    rw [hpc] at h
    show Shows _ (s.core.spawn _).batches _ _
    rw [BatchCore.batches_spawn]
    exact h
  | flushed hpc =>
    rw [hpc] at h
    exact h
  | sync hpc =>
    rw [hpc] at h
    exact h
  | synced resp hpc =>
    rw [hpc] at h
    exact h
  | start i c hc => exact htask (.start hc) _
  | finish i resp c hc => exact htask (.finish hc) _
  | send i c hc => exact htask (.send hc) _

end BufferUnorderedBatched

namespace SynchronizedBatched

variable {cfg : SynchronizedBatchedConfig}

/-- Everything a step can do. -/
inductive Move (cfg : SynchronizedBatchedConfig) (s : SynchronizedBatched M R E) :
    PollerLabel M (SynchronizedBatchedLabel R E) → SynchronizedBatched M R E → Prop
  | push (item : Request M) : s.core.closed = false →
      Move cfg s (.push item) { s with core.rx := s.core.rx ++ [item] }
  | take (item : Request M) (rx : List (Request M)) : s.pc = .recv → s.core.rx = item :: rx →
      Move cfg s (.run .recv)
        (body cfg { s with core.rx := rx, core.taken := s.core.taken ++ [item] } item)
  | ends : s.pc = .recv → s.core.rx = [] → s.core.closed = true →
      Move cfg s (.run .recv) { s with pc := .ended }
  | ask (i : ℕ) (batch : Batch M) : s.core.tasks[i]? = some ⟨batch, .spawned⟩ →
      .task i ∉ s.lock → Move cfg s (.run (.ask i)) { s with lock := s.lock ++ [.task i] }
  | start (i : ℕ) (c : BatchCore M R E) : s.lock.head? = some (.task i) →
      s.core.startTask i = some c → Move cfg s (.run (.start i)) { s with core := c }
  | finish (i : ℕ) (resp : Except E (List R)) (c : BatchCore M R E) :
      s.lock.head? = some (.task i) → s.core.finishTask i resp = some c →
      Move cfg s (.run (.finish i resp)) { s with core := c, lock := s.lock.tail }
  | send (i : ℕ) (c : BatchCore M R E) : s.core.sendTask i = some c →
      Move cfg s (.run (.send i)) { s with core := c }
  | askSync : s.pc = .syncAsk →
      Move cfg s (.run .askSync) { s with pc := .syncWait, lock := s.lock ++ [.sync] }
  | startSync : s.pc = .syncWait → s.lock.head? = some .sync →
      Move cfg s (.run .startSync) { s with pc := .syncing }
  | synced (resp : Except E Unit) : s.pc = .syncing →
      Move cfg s (.run (.syncDone resp))
        ⟨s.core.emit (.synchronized (resp.mapError .other)), .recv, s.lock.tail⟩
  | askOther : Move cfg s (.run .askOther) { s with lock := s.lock ++ [.other] }
  | otherDone : s.lock.head? = some .other →
      Move cfg s (.run .otherDone) { s with lock := s.lock.tail }

theorem move {s s' : SynchronizedBatched M R E}
    {l : PollerLabel M (SynchronizedBatchedLabel R E)} (h : s.step cfg l = some s') :
    Move cfg s l s' := by
  rcases l with item | l
  · obtain ⟨c, hc, rfl⟩ := Option.map_eq_some_iff.1 h
    unfold BatchCore.push at hc
    split_ifs at hc with hclosed
    cases hc
    exact .push item (by simpa using hclosed)
  · rcases l with _ | i | i | ⟨i, resp⟩ | i | _ | _ | resp | _ | _ <;>
      simp only [step, run] at h
    · split at h
      · rename_i hpc
        obtain ⟨⟨it, c⟩, hc, rfl⟩ := Option.map_eq_some_iff.1 h
        obtain ⟨item, rx, rfl, hrx, rfl⟩ | ⟨rfl, hrx, hclosed, rfl⟩ := BatchCore.recv_eq_some hc
        · exact .take item rx hpc hrx
        · exact .ends hpc hrx hclosed
      · cases h
    · split at h
      · rename_i batch hi
        split_ifs at h with hlock
        cases h
        exact .ask i batch hi hlock
      · cases h
    · split_ifs at h with hlock
      obtain ⟨c, hc, rfl⟩ := Option.map_eq_some_iff.1 h
      exact .start i c hlock hc
    · split_ifs at h with hlock
      obtain ⟨c, hc, rfl⟩ := Option.map_eq_some_iff.1 h
      exact .finish i resp c hlock hc
    · obtain ⟨c, hc, rfl⟩ := Option.map_eq_some_iff.1 h
      exact .send i c hc
    · split_ifs at h with hpc
      cases h
      exact .askSync hpc
    · split_ifs at h with hpc
      cases h
      exact .startSync hpc.1 hpc.2
    · split_ifs at h with hpc
      cases h
      exact .synced resp hpc
    · cases h
      exact .askOther
    · split_ifs at h with hlock
      cases h
      exact .otherDone hlock

def Splits (cfg : SynchronizedBatchedConfig) (s : SynchronizedBatched M R E) : Prop :=
  Shows cfg.batchSize s.core.batches s.core.buffered s.core.taken

theorem splits_start : Splits cfg (start cfg : SynchronizedBatched M R E) := Shows.nil

/-- The poller has panicked before its loop. -/
structure Dead (s : SynchronizedBatched M R E) : Prop where
  pc : s.pc = .aborted
  core : s.core.Untouched

theorem dead_start (hcfg : ¬ cfg.Starts) :
    Dead (start cfg : SynchronizedBatched M R E) :=
  ⟨if_neg hcfg, rfl⟩

theorem dead_step {s s' : SynchronizedBatched M R E}
    {l : PollerLabel M (SynchronizedBatchedLabel R E)} (h : Dead s)
    (hs : s.step cfg l = some s') : Dead s' := by
  have hpc := h.pc
  cases move hs with
  | push item => exact ⟨hpc, h.core.push item⟩
  | take _ _ hp | ends hp | askSync hp | startSync hp | synced _ hp =>
    rw [hpc] at hp
    cases hp
  | start i c _ hc => exact absurd (.start hc) h.core.not_taskStep
  | finish i resp c _ hc => exact absurd (.finish hc) h.core.not_taskStep
  | send i c hc => exact absurd (.send hc) h.core.not_taskStep
  | ask | askOther | otherDone => exact ⟨hpc, h.core⟩

theorem splits_body {s : SynchronizedBatched M R E} {rx : List (Request M)} (item : Request M)
    (h : Splits cfg s) :
    Splits cfg (body cfg { s with core.rx := rx, core.taken := s.core.taken ++ [item] } item) := by
  have hspawn : ∀ (c : BatchCore M R E) (taken : List (Request M)),
      Shows cfg.batchSize (c.batches ++ [c.buffered]) ⟨[], []⟩ taken →
      Shows cfg.batchSize (c.drain.spawn c.buffered).batches (c.drain.spawn c.buffered).buffered
        taken := by
    intro c taken h
    rw [BatchCore.batches_spawn]
    exact h
  rcases item with a | ⟨mid, msg, req⟩
  · by_cases ha : a = .flush
    · subst ha
      simp only [body]
      split_ifs with hb
      · exact h.flush_empty hb
      · exact hspawn _ _ (h.flush_part hb)
    · have := h.action ha
      rcases a with _ | _ | _ | _ | _
      · exact this
      · exact absurd rfl ha
      · exact this
      · exact this
      · exact this
  · simp only [body]
    split_ifs with hb
    · exact hspawn _ _ (h.request_full mid msg req hb)
    · exact h.request_part mid msg req hb

theorem Splits.task {s : SynchronizedBatched M R E} (h : Splits cfg s) {c : BatchCore M R E}
    (hc : BatchCore.TaskStep s.core c) (lock : List Holder) :
    Splits cfg { s with core := c, lock := lock } := by
  have hf := hc.frame
  simpa only [Splits, BatchCore.buffered, hf.bufferMid, hf.buffer, hf.batches, hf.taken] using h

theorem splits_step {s s' : SynchronizedBatched M R E}
    {l : PollerLabel M (SynchronizedBatchedLabel R E)} (h : Splits cfg s)
    (hs : s.step cfg l = some s') : Splits cfg s' := by
  cases move hs with
  | take item rx => exact splits_body item h
  | start i c _ hc => exact h.task (.start hc) _
  | finish i resp c _ hc => exact h.task (.finish hc) _
  | send i c hc => exact h.task (.send hc) _
  | _ => exact h

end SynchronizedBatched

end MessageBus
