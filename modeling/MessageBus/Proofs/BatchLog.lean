import MessageBus.Proofs.Counted

/-!
# The batches of a run, and what is sent for them

A batched poller beside the log of its run: the batches it dispatches, each with whether the loop
is at a `Flush`, what the handler returns for a task, and what the task sends. `BatchCore.Logged`
is what the log says of the tasks, and `Partitioned` what it says of the queue.
-/

namespace MessageBus

open Batching

section Log

variable {M R E : Type}

/-- What a step of a batched poller shows. -/
inductive BatchNote (M R E : Type) where
  | dispatched (batch : Batch M) (flush : Bool)
  | finished (i : ℕ) (resp : Except E (List R))
  | sent (i : ℕ) (ev : Event R E)

namespace BatchNote

def batch? : BatchNote M R E → Option (Batch M × Bool)
  | dispatched batch flush => some (batch, flush)
  | _ => none

def result? (i : ℕ) : BatchNote M R E → Option (Except E (List R))
  | finished j resp => if j = i then some resp else none
  | _ => none

def event? (i : ℕ) : BatchNote M R E → Option (Event R E)
  | sent j ev => if j = i then some ev else none
  | _ => none

end BatchNote

/-- A task's handler returns, or it sends its next event. -/
inductive TaskMove (R E : Type) where
  | finish (i : ℕ) (resp : Except E (List R))
  | send (i : ℕ)

def BufferUnorderedBatchedLabel.taskMove? :
    BufferUnorderedBatchedLabel R E → Option (TaskMove R E)
  | .finish i resp => some (.finish i resp)
  | .send i => some (.send i)
  | _ => none

def SynchronizedBatchedLabel.taskMove? : SynchronizedBatchedLabel R E → Option (TaskMove R E)
  | .finish i resp => some (.finish i resp)
  | .send i => some (.send i)
  | _ => none

/-- A panic is no move of these. -/
def PollerLabel.taskMove? {ℓ : Type} (f : ℓ → Option (TaskMove R E)) :
    PollerLabel M (ℓ ⊕ Panic) → Option (TaskMove R E)
  | .run (.inl l) => f l
  | _ => none

namespace BatchCore

/-- The item the loop is at, the last it has taken, is a `Flush`. -/
def atFlush (c : BatchCore M R E) : Bool :=
  match c.taken.getLast? with
  | some (.action .flush) => true
  | _ => false

/-- What there is to see of a task's move. -/
def taskNotes (c c' : BatchCore M R E) : TaskMove R E → List (BatchNote M R E)
  | .finish i resp => [.finished i resp]
  | .send i => (c'.stx.drop c.stx.length).map (.sent i)

/-- What there is to see of a step from one state to the next. -/
def notes (c : BatchCore M R E) (m : Option (TaskMove R E)) (c' : BatchCore M R E) :
    List (BatchNote M R E) :=
  ((c'.tasks.drop c.tasks.length).map fun t => .dispatched t.batch c'.atFlush) ++
    m.elim [] (taskNotes c c')

theorem notes_of_length {c c' : BatchCore M R E} (m : Option (TaskMove R E))
    (h : c'.tasks.length = c.tasks.length) : c.notes m c' = m.elim [] (taskNotes c c') := by
  simp [notes, ← h]

end BatchCore

def BufferUnorderedBatched.notes (s : BufferUnorderedBatched M R E)
    (l : PollerLabel M (BufferUnorderedBatchedLabel R E ⊕ Panic))
    (s' : BufferUnorderedBatched M R E) : List (BatchNote M R E) :=
  s.core.notes (l.taskMove? BufferUnorderedBatchedLabel.taskMove?) s'.core

def SynchronizedBatched.notes (s : SynchronizedBatched M R E)
    (l : PollerLabel M (SynchronizedBatchedLabel R E ⊕ Panic)) (s' : SynchronizedBatched M R E) :
    List (BatchNote M R E) :=
  s.core.notes (l.taskMove? SynchronizedBatchedLabel.taskMove?) s'.core

end Log

section Answers

variable {R E : Type}

/-- What the `j`-th mid of a batch is answered with. -/
def answerAt (resp : Except E (List R)) (j : ℕ) : Except (Error Unit E) R :=
  match resp with
  | .ok re => (re[j]?).elim (.error .noResponse) .ok
  | .error er => .error (.other er)

theorem answers_batchAnswers : ∀ (mids : List (UInt64 × Bool)) (re : List R),
    (batchAnswers mids re : List (Event R E)).filterMap Event.answer?
      = mids.mapIdx fun j m => (m.1, answerAt (.ok re) j)
  | [], _ => rfl
  | (mid, req) :: mids, r :: re => by
    have hre : ∀ j, (answerAt (.ok (r :: re)) (j + 1) : Except (Error Unit E) R)
        = answerAt (.ok re) j := fun j => by simp [answerAt]
    simp only [batchAnswers, List.filterMap_cons, Event.answer?, answers_batchAnswers mids re,
      List.mapIdx_cons, hre]
    rfl
  | (mid, req) :: mids, [] => by
    have hre : ∀ j, (answerAt (.ok []) (j + 1) : Except (Error Unit E) R)
        = answerAt (.ok []) j := fun j => by simp [answerAt]
    simp only [batchAnswers, List.filterMap_cons, Event.answer?, answers_batchAnswers mids [],
      List.mapIdx_cons, hre]
    rfl

/-- One response for each mid, in order: with the output in its place, `NoResponse` past the last of
them, or the handler's error. -/
theorem answers_processBatchResult (resp : Except E (List R)) (mids : List (UInt64 × Bool)) :
    (processBatchResult resp mids).filterMap Event.answer?
      = mids.mapIdx fun j m => (m.1, answerAt resp j) := by
  cases resp with
  | ok re => exact answers_batchAnswers mids re
  | error er =>
    have hnil : [Event.error (.other er)].filterMap Event.answer?
        = ([] : List (UInt64 × Except (Error Unit E) R)) := rfl
    refine List.ext_getElem? fun i => ?_
    simp [processBatchResult, answerAt, List.filterMap_append, Event.answer?, hnil,
      List.filterMap_map, Function.comp_def]

end Answers

section Tasks

variable {M R E : Type}

/-- What a task has done. Once its handler has returned, the events it has sent and those it has
still to send are the ones for what was returned. -/
inductive BatchTask.Told (t : BatchTask M R E) (results : List (Except E (List R)))
    (sent : List (Event R E)) : Prop
  | waiting (hstage : ∀ evs, t.stage ≠ .sending evs) (hr : results = []) (hs : sent = [])
  | panicked (hstage : t.stage = .sending []) (hr : results = []) (hs : sent = [])
  | answering (evs : List (Event R E)) (resp : Except E (List R)) (hstage : t.stage = .sending evs)
      (hr : results = [resp]) (hs : sent ++ evs = processBatchResult resp t.batch.mids)

namespace BatchCore

/-- The log of a run with batches of `b` has every batch the poller has dispatched, of a proper
size, and all that its tasks have done. -/
structure Logged (b : ℕ) (c : BatchCore M R E) (log : List (BatchNote M R E)) : Prop where
  dispatched : (log.filterMap BatchNote.batch?).map Prod.fst = c.batches
  sized : ∀ d ∈ log.filterMap BatchNote.batch?, d.1.msgs ≠ [] ∧ d.1.msgs.length ≤ max 1 b ∧
    (d.2 = false → d.1.msgs.length = max 1 b)
  told : ∀ i (t : BatchTask M R E), c.tasks[i]? = some t →
    t.Told (log.filterMap (BatchNote.result? i)) (log.filterMap (BatchNote.event? i))
  fresh : ∀ i, c.tasks.length ≤ i →
    log.filterMap (BatchNote.result? i) = [] ∧ log.filterMap (BatchNote.event? i) = []

namespace Logged

variable {b : ℕ} {c c' : BatchCore M R E} {log : List (BatchNote M R E)}

theorem start : Logged b (start : BatchCore M R E) [] where
  dispatched := rfl
  sized := List.forall_mem_nil _
  told _ _ h := by cases h
  fresh _ _ := ⟨rfl, rfl⟩

/-- Nothing happens to the tasks. -/
theorem stay (h : Logged b c log) (ht : c'.tasks = c.tasks) :
    Logged b c' (log ++ c.notes none c') := by
  have hnotes : c.notes none c' = [] := by simp [notes, ht]
  rw [hnotes, List.append_nil]
  exact ⟨by rw [h.dispatched, batches, batches, ht], h.sized, by rw [ht]; exact h.told,
    by rw [ht]; exact h.fresh⟩

/-- A batch is dispatched. -/
theorem spawn (h : Logged b c log) {batch : Batch M}
    (ht : c'.tasks = c.tasks ++ [⟨batch, .spawned⟩])
    (hne : batch.msgs ≠ []) (hle : batch.msgs.length ≤ max 1 b)
    (hfull : c'.atFlush = false → batch.msgs.length = max 1 b) :
    Logged b c' (log ++ c.notes none c') := by
  have hnotes : c.notes none c' = [.dispatched batch c'.atFlush] := by simp [notes, ht]
  have hresult : ∀ i,
      (log ++ [BatchNote.dispatched batch c'.atFlush]).filterMap (BatchNote.result? i)
      = log.filterMap (BatchNote.result? i) := fun i => by simp [BatchNote.result?]
  have hevent : ∀ i,
      (log ++ [BatchNote.dispatched batch c'.atFlush]).filterMap (BatchNote.event? i)
      = log.filterMap (BatchNote.event? i) := fun i => by simp [BatchNote.event?]
  rw [hnotes]
  refine ⟨?_, ?_, fun i t hi => ?_, fun i hi => ?_⟩
  · simp [List.filterMap_append, BatchNote.batch?, h.dispatched, batches, ht]
  · rw [List.filterMap_append, List.forall_mem_append]
    exact ⟨h.sized, List.forall_mem_singleton.2 ⟨hne, hle, hfull⟩⟩
  · rw [hresult, hevent]
    rw [ht, List.getElem?_append] at hi
    split_ifs at hi with hlt
    · exact h.told i t hi
    · obtain ⟨hr, hs⟩ := h.fresh i (by omega)
      obtain rfl : t = ⟨batch, .spawned⟩ := by simpa using List.mem_of_getElem? hi
      exact .waiting (by rintro _ ⟨⟩) hr hs
  · rw [hresult, hevent]
    rw [ht] at hi
    simp only [List.length_append, List.length_singleton] at hi
    exact h.fresh i (by omega)

/-- A task moves on: what it is told to have done becomes what it has done now. -/
theorem setTask (h : Logged b c log) {i : ℕ} {t : BatchTask M R E} (t' : BatchTask M R E)
    (hi : c.tasks[i]? = some t)
    (ht : c'.tasks = c.tasks.set i t') (hb : t'.batch = t.batch) {new : List (BatchNote M R E)}
    (hbatch : new.filterMap BatchNote.batch? = [])
    (hother : ∀ j, j ≠ i → new.filterMap (BatchNote.result? j) = [] ∧
      new.filterMap (BatchNote.event? j) = [])
    (htold : t.Told (log.filterMap (BatchNote.result? i)) (log.filterMap (BatchNote.event? i)) →
      t'.Told ((log ++ new).filterMap (BatchNote.result? i))
        ((log ++ new).filterMap (BatchNote.event? i))) :
    Logged b c' (log ++ new) := by
  have hlt : i < c.tasks.length := (List.getElem?_eq_some_iff.1 hi).1
  have hsame : ∀ j, j ≠ i →
      (log ++ new).filterMap (BatchNote.result? j) = log.filterMap (BatchNote.result? j) ∧
      (log ++ new).filterMap (BatchNote.event? j) = log.filterMap (BatchNote.event? j) :=
    fun j hj => by simp [List.filterMap_append, hother j hj]
  refine ⟨?_, ?_, fun j t'' hj => ?_, fun j hj => ?_⟩
  · rw [List.filterMap_append, hbatch, List.append_nil, h.dispatched, batches, batches, ht]
    exact (Pool.map_set_of_eq hi t' hb).symm
  · rw [List.filterMap_append, hbatch, List.append_nil]
    exact h.sized
  · by_cases hji : j = i
    · subst hji
      rw [ht, List.getElem?_set_self hlt] at hj
      cases hj
      exact htold (h.told j t hi)
    · rw [(hsame j hji).1, (hsame j hji).2]
      rw [ht, List.getElem?_set_ne (Ne.symm hji)] at hj
      exact h.told j t'' hj
  · rw [ht, List.length_set] at hj
    have hji : j ≠ i := by omega
    rw [(hsame j hji).1, (hsame j hji).2]
    exact h.fresh j hj

theorem startTask (h : Logged b c log) {i : ℕ} (hs : c.startTask i = some c') :
    Logged b c' (log ++ c.notes none c') := by
  obtain ⟨batch, hi, rfl⟩ := startTask_eq_some hs
  rw [notes_of_length none (List.length_set ..)]
  refine h.setTask ⟨batch, .handling⟩ hi rfl rfl rfl (fun _ _ => ⟨rfl, rfl⟩) fun ht => ?_
  rw [Option.elim_none, List.append_nil]
  rcases ht with ⟨-, hr, hs⟩ | ⟨hstage, -, -⟩ | ⟨evs, resp, hstage, -, -⟩
  · exact .waiting (by rintro _ ⟨⟩) hr hs
  · cases hstage
  · cases hstage

theorem finishTask (h : Logged b c log) {i : ℕ} {resp : Except E (List R)}
    (hs : c.finishTask i resp = some c') :
    Logged b c' (log ++ c.notes (some (.finish i resp)) c') := by
  obtain ⟨batch, hi, rfl⟩ := finishTask_eq_some hs
  rw [notes_of_length _ (List.length_set ..)]
  refine h.setTask ⟨batch, .sending _⟩ hi rfl rfl rfl (fun j hj => ?_) fun ht => ?_
  · simp [taskNotes, BatchNote.result?, BatchNote.event?, Ne.symm hj]
  rcases ht with ⟨-, hr, hs⟩ | ⟨hstage, -, -⟩ | ⟨evs, resp, hstage, -, -⟩
  · refine .answering _ resp rfl ?_ ?_
    · simp [taskNotes, List.filterMap_append, BatchNote.result?, hr]
    · simp [taskNotes, List.filterMap_append, BatchNote.event?, hs]
  · cases hstage
  · cases hstage

theorem sendTask (h : Logged b c log) {i : ℕ} (hs : c.sendTask i = some c') :
    Logged b c' (log ++ c.notes (some (.send i)) c') := by
  obtain ⟨batch, ev, evs, hi, rfl⟩ := sendTask_eq_some hs
  rw [notes_of_length _ (List.length_set ..)]
  have hnotes : taskNotes c ({ c with tasks := c.tasks.set i ⟨batch, .sending evs⟩ }.emit ev)
      (.send i) = [.sent i ev] := by simp [taskNotes, emit]
  rw [Option.elim_some, hnotes]
  refine h.setTask ⟨batch, .sending evs⟩ hi rfl rfl rfl (fun j hj => ?_) fun ht => ?_
  · simp [BatchNote.result?, BatchNote.event?, Ne.symm hj]
  rcases ht with ⟨hstage, -, -⟩ | ⟨hstage, -, -⟩ | ⟨evs', resp, hstage, hr, hs⟩
  · exact absurd rfl (hstage _)
  · cases hstage
  · cases hstage
    refine .answering evs resp rfl ?_ ?_
    · rw [List.filterMap_append, hr]
      rfl
    · simpa [List.filterMap_append, BatchNote.event?] using hs

theorem panicTask (h : Logged b c log) {i : ℕ} (hs : c.panicTask i = some c') :
    Logged b c' (log ++ c.notes none c') := by
  obtain ⟨batch, hi, rfl⟩ := panicTask_eq_some hs
  rw [notes_of_length none (List.length_set ..)]
  refine h.setTask ⟨batch, .sending []⟩ hi rfl rfl rfl (fun _ _ => ⟨rfl, rfl⟩) fun ht => ?_
  rw [Option.elim_none, List.append_nil]
  rcases ht with ⟨-, hr, hs⟩ | ⟨hstage, -, -⟩ | ⟨evs, resp, hstage, -, -⟩
  · exact .panicked rfl hr hs
  · cases hstage
  · cases hstage

end Logged

end BatchCore

end Tasks

section Loops

variable {M R E : Type}

namespace BufferUnorderedBatched

variable {cfg : BufferUnorderedBatchedConfig} {s s' : BufferUnorderedBatched M R E}
  {log : List (BatchNote M R E)}

/-- The batch drained for a `Flush` that waits for its permit. -/
def hand (s : BufferUnorderedBatched M R E) : List (Batch M) :=
  match s.pc with
  | .flushAcquire batch => [batch]
  | _ => []

/-- How far the buffers are filled, by where the loop is. -/
structure Filling (cfg : BufferUnorderedBatchedConfig) (s : BufferUnorderedBatched M R E) :
    Prop where
  aligned : s.core.bufferMid.length = s.core.buffer.length
  part : s.pc ≠ .acquire → s.core.buffer.length < max 1 cfg.batchSize
  full : s.pc = .acquire → s.core.buffer.length = max 1 cfg.batchSize
  hand : ∀ batch, s.pc = .flushAcquire batch → batch.msgs ≠ [] ∧
    batch.msgs.length < max 1 cfg.batchSize ∧ s.core.atFlush = true

/-- Where the loop waits for no batch's permit the buffers have room. -/
theorem Filling.of_room (ha : s.core.bufferMid.length = s.core.buffer.length)
    (hp : s.core.buffer.length < max 1 cfg.batchSize) (hpc : s.pc ≠ .acquire)
    (hflush : ∀ batch, s.pc ≠ .flushAcquire batch) : Filling cfg s :=
  ⟨ha, fun _ => hp, fun h => absurd h hpc, fun batch h => absurd h (hflush batch)⟩

theorem filling_start : Filling cfg (start cfg : BufferUnorderedBatched M R E) := by
  have hroom : (0 : ℕ) < max 1 cfg.batchSize := by omega
  unfold start
  split_ifs <;> exact .of_room rfl hroom (by rintro ⟨⟩) (by rintro _ ⟨⟩)

theorem filling_body {core : BatchCore M R E} {permits : ℕ} {rx : List (Request M)}
    (item : Request M) (ha : core.bufferMid.length = core.buffer.length)
    (hp : core.buffer.length < max 1 cfg.batchSize) :
    Filling cfg (body cfg ⟨{ core with rx := rx, taken := core.taken ++ [item] }, .recv, permits⟩
      item) := by
  rcases item with a | ⟨mid, msg, req⟩
  · cases a with
    | flush =>
      simp only [body]
      split_ifs with hb
      · exact .of_room ha hp (by rintro ⟨⟩) (by rintro _ ⟨⟩)
      · have hne : core.buffer ≠ [] := by
          rintro hnil
          rw [hnil, List.length_nil, List.length_eq_zero_iff] at ha
          exact hb (by simp [ha])
        refine ⟨rfl, fun _ => Nat.zero_lt_of_lt hp, by rintro ⟨⟩, fun batch h => ?_⟩
        cases h
        exact ⟨hne, hp, by simp [BatchCore.drain, BatchCore.atFlush]⟩
    | _ => exact .of_room ha hp (by rintro ⟨⟩) (by rintro _ ⟨⟩)
  · have ha' : (core.bufferMid ++ [(mid, req)]).length = (core.buffer ++ [msg]).length := by
      simp [ha]
    have hlen : (core.buffer ++ [msg]).length = core.buffer.length + 1 := by simp
    simp only [body]
    split_ifs with hb
    · have hb : cfg.batchSize ≤ (core.bufferMid ++ [(mid, req)]).length := hb
      refine ⟨ha', fun h => absurd rfl h, fun _ => ?_, by rintro _ ⟨⟩⟩
      show (core.buffer ++ [msg]).length = _
      omega
    · have hb : ¬ cfg.batchSize ≤ (core.bufferMid ++ [(mid, req)]).length := hb
      refine .of_room ha' ?_ (by rintro ⟨⟩) (by rintro _ ⟨⟩)
      show (core.buffer ++ [msg]).length < _
      omega

theorem Filling.task (h : Filling cfg s) {c : BatchCore M R E}
    (hc : BatchCore.TaskStep s.core c) (permits : ℕ) :
    Filling cfg { s with core := c, permits := permits } := by
  have hf := hc.frame
  refine ⟨?_, ?_, ?_, ?_⟩
  · simpa only [hf.bufferMid, hf.buffer] using h.aligned
  · simpa only [hf.buffer] using h.part
  · simpa only [hf.buffer] using h.full
  · simpa only [BatchCore.atFlush, hf.taken] using h.hand

/-- A step of the loop but a dispatch leaves the tasks as they are. -/
theorem tasks_body (s : BufferUnorderedBatched M R E) (item : Request M) :
    (body cfg s item).core.tasks = s.core.tasks := by
  rcases item with a | ⟨mid, msg, req⟩
  · cases a with
    | flush =>
      simp only [body]
      split_ifs <;> rfl
    | _ => rfl
  · rfl

/-- What a step keeps: the log, and how far the buffers are filled. -/
theorem logged_step {l : PollerLabel M (BufferUnorderedBatchedLabel R E ⊕ Panic)}
    (h : s.core.Logged cfg.batchSize log) (hf : Filling cfg s)
    (hs : (withPanics (bufferUnorderedBatchPoller M R E cfg) (panic cfg)).step s l = some s') :
    s'.core.Logged cfg.batchSize (log ++ s.notes l s') ∧ Filling cfg s' := by
  rcases l with item | l | p
  · have hs : s.step cfg (.push item) = some s' := hs
    cases move hs
    exact ⟨h.stay rfl, hf.aligned, hf.part, hf.full, hf.hand⟩
  · have hs : s.step cfg (.run l) = some s' := hs
    cases move hs with
    | take item rx hpc hrx =>
      refine ⟨h.stay (tasks_body _ item), ?_⟩
      rw [hpc]
      exact filling_body item hf.aligned (hf.part (by simp [hpc]))
    | ends hpc => exact ⟨h.stay rfl, .of_room hf.aligned (hf.part (by simp [hpc])) nofun nofun⟩
    | dispatch hpc =>
      have hfull := hf.full hpc
      refine ⟨h.spawn rfl ?_ (Nat.le_of_eq hfull) fun _ => hfull,
        .of_room rfl (by show 0 < _; omega) nofun nofun⟩
      intro hnil
      have hnil : s.core.buffer = [] := hnil
      rw [hnil, List.length_nil] at hfull
      omega
    | flushDispatch batch hpc =>
      obtain ⟨hne, hlt, hflush⟩ := hf.hand batch hpc
      refine ⟨h.spawn rfl hne (Nat.le_of_lt hlt) fun hfalse => ?_,
        .of_room hf.aligned (hf.part (by simp [hpc])) nofun nofun⟩
      exact absurd (hflush.symm.trans hfalse) (by decide)
    | flushed hpc =>
      exact ⟨h.stay rfl, .of_room hf.aligned (hf.part (by simp [hpc])) nofun nofun⟩
    | sync hpc => exact ⟨h.stay rfl, .of_room hf.aligned (hf.part (by simp [hpc])) nofun nofun⟩
    | synced resp hpc =>
      exact ⟨h.stay rfl, .of_room hf.aligned (hf.part (by simp [hpc])) nofun nofun⟩
    | start i c hc => exact ⟨h.startTask hc, hf.task (.start hc) _⟩
    | finish i resp c hc => exact ⟨h.finishTask hc, hf.task (.finish hc) _⟩
    | send i c hc => exact ⟨h.sendTask hc, hf.task (.send hc) _⟩
  · obtain ⟨i, c, -, hc, rfl⟩ | ⟨-, hpc, rfl⟩ := panic_cases hs
    · exact ⟨h.panicTask hc, hf.task (.panic hc) _⟩
    · exact ⟨h.stay rfl, .of_room hf.aligned (hf.part (by simp [hpc])) nofun nofun⟩

theorem splits_withPanics {l : PollerLabel M (BufferUnorderedBatchedLabel R E ⊕ Panic)}
    (h : Splits cfg s)
    (hs : (withPanics (bufferUnorderedBatchPoller M R E cfg) (panic cfg)).step s l = some s') :
    Splits cfg s' := by
  obtain ⟨l', hl'⟩ | ⟨p, hp⟩ := withPanics_step hs
  · exact splits_step h hl'
  · obtain ⟨i, c, -, hc, rfl⟩ | ⟨-, hpc, rfl⟩ := panic_cases hp
    · exact h.task (.panic hc) _
    · unfold Splits shown at h
      rw [hpc] at h
      exact h

end BufferUnorderedBatched

namespace SynchronizedBatched

variable {cfg : SynchronizedBatchedConfig} {s s' : SynchronizedBatched M R E}
  {log : List (BatchNote M R E)}

/-- The buffers have room for a message, and are of one length. -/
def Filling (cfg : SynchronizedBatchedConfig) (c : BatchCore M R E) : Prop :=
  c.bufferMid.length = c.buffer.length ∧ c.buffer.length < max 1 cfg.batchSize

theorem filling_task {c c' : BatchCore M R E} (h : Filling cfg c) (hc : BatchCore.TaskStep c c') :
    Filling cfg c' := by
  have hf := hc.frame
  simpa only [Filling, hf.bufferMid, hf.buffer] using h

/-- The loop takes an item, and dispatches at most a batch. -/
theorem logged_body {rx : List (Request M)} (item : Request M)
    (h : s.core.Logged cfg.batchSize log) (hf : Filling cfg s.core) {t : SynchronizedBatched M R E}
    (ht : t = body cfg { s with core.rx := rx, core.taken := s.core.taken ++ [item] } item) :
    t.core.Logged cfg.batchSize (log ++ s.core.notes none t.core) ∧ Filling cfg t.core := by
  subst ht
  obtain ⟨ha, hp⟩ := hf
  have hroom : (0 : ℕ) < max 1 cfg.batchSize := Nat.zero_lt_of_lt hp
  rcases item with a | ⟨mid, msg, req⟩
  · cases a with
    | flush =>
      simp only [body]
      split_ifs with hb
      · exact ⟨h.stay rfl, ha, hp⟩
      · refine ⟨h.spawn rfl ?_ (Nat.le_of_lt hp) fun hfalse => ?_, rfl, hroom⟩
        · intro hnil
          have hnil : s.core.buffer = [] := hnil
          rw [hnil, List.length_nil, List.length_eq_zero_iff] at ha
          exact hb (by simp [ha])
        · simp [BatchCore.atFlush, BatchCore.emit, BatchCore.spawn, BatchCore.drain] at hfalse
    | _ => exact ⟨h.stay rfl, ha, hp⟩
  · have ha' : (s.core.bufferMid ++ [(mid, req)]).length = (s.core.buffer ++ [msg]).length := by
      simp [ha]
    have hlen : (s.core.buffer ++ [msg]).length = s.core.buffer.length + 1 := by simp
    simp only [body]
    split_ifs with hb
    · have hb : cfg.batchSize ≤ (s.core.bufferMid ++ [(mid, req)]).length := hb
      have hfull : (s.core.buffer ++ [msg]).length = max 1 cfg.batchSize := by omega
      exact ⟨h.spawn rfl (by simp [BatchCore.buffered, BatchCore.bufferPush]) (Nat.le_of_eq hfull)
        fun _ => hfull, rfl, hroom⟩
    · have hb : ¬ cfg.batchSize ≤ (s.core.bufferMid ++ [(mid, req)]).length := hb
      refine ⟨h.stay rfl, ha', ?_⟩
      show (s.core.buffer ++ [msg]).length < _
      omega

/-- What a step keeps: the log, and how far the buffers are filled. -/
theorem logged_step {l : PollerLabel M (SynchronizedBatchedLabel R E ⊕ Panic)}
    (h : s.core.Logged cfg.batchSize log) (hf : Filling cfg s.core)
    (hs : (withPanics (batchSynchronizedPoller M R E cfg) panic).step s l = some s') :
    s'.core.Logged cfg.batchSize (log ++ s.notes l s') ∧ Filling cfg s'.core := by
  rcases l with item | l | p
  · have hs : s.step cfg (.push item) = some s' := hs
    cases move hs
    exact ⟨h.stay rfl, hf⟩
  · have hs : s.step cfg (.run l) = some s' := hs
    cases move hs with
    | take item rx => exact logged_body item h hf rfl
    | start i c _ hc => exact ⟨h.startTask hc, filling_task hf (.start hc)⟩
    | finish i resp c _ hc => exact ⟨h.finishTask hc, filling_task hf (.finish hc)⟩
    | send i c hc => exact ⟨h.sendTask hc, filling_task hf (.send hc)⟩
    | _ => exact ⟨h.stay rfl, hf⟩
  · obtain ⟨i, c, -, -, hc, rfl⟩ | ⟨-, -, rfl⟩ := panic_cases hs
    · exact ⟨h.panicTask hc, filling_task hf (.panic hc)⟩
    · exact ⟨h.stay rfl, hf⟩

theorem splits_withPanics {l : PollerLabel M (SynchronizedBatchedLabel R E ⊕ Panic)}
    (h : Splits cfg s)
    (hs : (withPanics (batchSynchronizedPoller M R E cfg) panic).step s l = some s') :
    Splits cfg s' := by
  obtain ⟨l', hl'⟩ | ⟨p, hp⟩ := withPanics_step hs
  · exact splits_step h hl'
  · obtain ⟨i, c, -, -, hc, rfl⟩ | ⟨-, -, rfl⟩ := panic_cases hp
    · exact h.task (.panic hc) _
    · exact h

end SynchronizedBatched

end Loops

section Main

variable {M R E : Type}

/-- The message of an item, behind its mid and whether it is a request. -/
def Request.entry? : Request M → Option ((UInt64 × Bool) × M)
  | .request mid msg req => some ((mid, req), msg)
  | .action _ => none

theorem put_cmds (items : List (Request M)) :
    (items.filterMap Request.cmd?).filterMap Cmd.put? = items.filterMap Request.entry? := by
  rw [List.filterMap_filterMap]
  refine List.filterMap_congr fun item _ => ?_
  rcases item with a | ⟨mid, msg, req⟩
  · cases a <;> rfl
  · rfl

/-- The batches and behind them the buffer are the messages taken, in order, each with its mid in
the same place. -/
def Cuts (batches : List (Batch M)) (buffer : Batch M) (taken : List (Request M)) : Prop :=
  ∃ (parts : List (List ((UInt64 × Bool) × M))) (rest : List ((UInt64 × Bool) × M)),
    batches = parts.map Batch.of ∧ buffer = Batch.of rest ∧
      parts.flatten ++ rest = taken.filterMap Request.entry?

/-- The batches and the buffer are what was dequeued, in order, each message beside its mid; every
batch dispatched is of a proper size, short of a whole one only at a `Flush`; and the responses for
it are one for each mid, in order. -/
structure Partitioned (b : ℕ) (c : BatchCore M R E) (hand : List (Batch M))
    (log : List (BatchNote M R E)) : Prop where
  queue : Cuts (c.batches ++ hand) c.buffered c.taken
  dispatched : (log.filterMap BatchNote.batch?).map Prod.fst = c.batches
  sized : ∀ d ∈ log.filterMap BatchNote.batch?, d.1.msgs ≠ [] ∧ d.1.msgs.length ≤ max 1 b ∧
    (d.2 = false → d.1.msgs.length = max 1 b)
  answers : ∀ i (t : BatchTask M R E) resp, c.tasks[i]? = some t →
    resp ∈ log.filterMap (BatchNote.result? i) →
    log.filterMap (BatchNote.result? i) = [resp] ∧
      (log.filterMap (BatchNote.event? i) ++ t.unsent).filterMap Event.answer?
        = t.batch.mids.mapIdx fun j m => (m.1, answerAt resp j)
  silent : ∀ i (t : BatchTask M R E), c.tasks[i]? = some t →
    log.filterMap (BatchNote.result? i) = [] →
    log.filterMap (BatchNote.event? i) = [] ∧ t.unsent = []

theorem BatchCore.Logged.partitioned {b : ℕ} {c : BatchCore M R E} {hand : List (Batch M)}
    {log : List (BatchNote M R E)} (h : c.Logged b log)
    (hqueue : Cuts (c.batches ++ hand) c.buffered c.taken) : Partitioned b c hand log := by
  refine ⟨hqueue, h.dispatched, h.sized, fun i t resp hi hresp => ?_, fun i t hi hnil => ?_⟩
  · rcases h.told i t hi with ⟨-, hr, -⟩ | ⟨-, hr, -⟩ | ⟨evs, resp', hstage, hr, hs⟩
    · simp [hr] at hresp
    · simp [hr] at hresp
    · rw [hr, List.mem_singleton] at hresp
      subst hresp
      refine ⟨hr, ?_⟩
      rw [BatchTask.unsent, hstage, hs, answers_processBatchResult]
  · rcases h.told i t hi with ⟨hstage, -, hs⟩ | ⟨hstage, -, hs⟩ | ⟨evs, resp', -, hr, -⟩
    · refine ⟨hs, ?_⟩
      unfold BatchTask.unsent
      split
      · exact absurd ‹_› (hstage _)
      · rfl
    · exact ⟨hs, by rw [BatchTask.unsent, hstage]⟩
    · simp [hr] at hnil

theorem Shows.cuts {b : ℕ} {batches : List (Batch M)} {buffer : Batch M} {taken : List (Request M)}
    (h : Shows b batches buffer taken) : Cuts batches buffer taken :=
  ⟨_, _, h.1, h.2, by rw [flatten_split, put_cmds]⟩

/-- The last batch may as well be in the buffer still. -/
theorem Cuts.unbuffer {batches : List (Batch M)} {batch : Batch M} {taken : List (Request M)}
    (h : Cuts (batches ++ [batch]) ⟨[], []⟩ taken) : Cuts batches batch taken := by
  obtain ⟨parts, rest, hparts, hrest, hqueue⟩ := h
  obtain ⟨parts', last, rfl, rfl, hlast⟩ := List.map_eq_append_iff.1 hparts.symm
  obtain ⟨part, rfl, rfl⟩ := List.map_eq_singleton_iff.1 hlast
  obtain rfl : rest = [] := by
    have := congrArg Batch.mids hrest
    simpa [Batch.of] using this.symm
  exact ⟨parts', part, rfl, rfl, by simpa using hqueue⟩

/-- A full batch that waits for its permit is in the buffer still, one of a `Flush` is not. -/
theorem BufferUnorderedBatched.Splits.cuts {cfg : BufferUnorderedBatchedConfig}
    {s : BufferUnorderedBatched M R E} (h : Splits cfg s) :
    Cuts (s.core.batches ++ s.hand) s.core.buffered s.core.taken := by
  have h := Shows.cuts h
  unfold shown at h
  unfold hand
  cases hpc : s.pc <;> simp only [hpc, List.append_nil] at h ⊢
  case acquire => exact h.unbuffer
  all_goals exact h

/-- Both batched pollers, at every point of every run, the handler may panic: what they dispatch is
a partition of the queue, and each batch is answered mid by mid. -/
theorem batches_partition (M R E : Type) :
    (∀ (cfg : BufferUnorderedBatchedConfig) s log,
      ((withPanics (bufferUnorderedBatchPoller M R E cfg) (BufferUnorderedBatched.panic cfg)).logged
        BufferUnorderedBatched.notes).Reachable (s, log) →
      Partitioned cfg.batchSize s.core s.hand log) ∧
    ∀ (cfg : SynchronizedBatchedConfig) s log,
      ((withPanics (batchSynchronizedPoller M R E cfg) SynchronizedBatched.panic).logged
        SynchronizedBatched.notes).Reachable (s, log) →
      Partitioned cfg.batchSize s.core [] log := by
  constructor
  · intro cfg s log hr
    obtain ⟨hlog, -, hsplits⟩ := Lts.logged_invariant
      (J := fun s log => s.core.Logged cfg.batchSize log ∧
        BufferUnorderedBatched.Filling cfg s ∧ BufferUnorderedBatched.Splits cfg s)
      ⟨.start, BufferUnorderedBatched.filling_start, BufferUnorderedBatched.splits_start⟩
      (fun _ _ _ _ h hs =>
        have hstep := BufferUnorderedBatched.logged_step h.1 h.2.1 hs
        ⟨hstep.1, hstep.2, BufferUnorderedBatched.splits_withPanics h.2.2 hs⟩) hr
    exact hlog.partitioned hsplits.cuts
  · intro cfg s log hr
    obtain ⟨hlog, -, hsplits⟩ := Lts.logged_invariant
      (J := fun s log => s.core.Logged cfg.batchSize log ∧
        SynchronizedBatched.Filling cfg s.core ∧ SynchronizedBatched.Splits cfg s)
      ⟨.start, ⟨rfl, by show 0 < _; omega⟩, SynchronizedBatched.splits_start⟩
      (fun _ _ _ _ h hs =>
        have hstep := SynchronizedBatched.logged_step h.1 h.2.1 hs
        ⟨hstep.1, hstep.2, SynchronizedBatched.splits_withPanics h.2.2 hs⟩) hr
    refine hlog.partitioned ?_
    rw [List.append_nil]
    exact hsplits.cuts

/-- A full batch whose handler returns an output too few, and a message and a `Flush`, whose handler
returns one too many and is done first. -/
def twoBatches : List (PollerLabel Unit (BufferUnorderedBatchedLabel Unit Unit ⊕ Panic)) :=
  [.push (.request 7 () true), .push (.request 8 () false), .push (.request 9 () true),
    .push (.action .flush), .run (.inl .recv), .run (.inl .recv), .run (.inl .acquire),
    .run (.inl (.start 0)), .run (.inl .recv), .run (.inl .recv), .run (.inl .acquire),
    .run (.inl (.start 1)), .run (.inl (.finish 1 (.ok [(), ()]))), .run (.inl (.send 1)),
    .run (.inl (.finish 0 (.ok [()]))), .run (.inl (.send 0)), .run (.inl (.send 0)),
    .run (.inl .acquire)]

/-- What the log of that run has. -/
def twoBatchesLog : List (BatchNote Unit Unit Unit) :=
  [.dispatched ⟨[(7, true), (8, false)], [(), ()]⟩ false, .dispatched ⟨[(9, true)], [()]⟩ true,
    .finished 1 (.ok [(), ()]), .sent 1 (.response 9 (.ok ())), .finished 0 (.ok [()]),
    .sent 0 (.response 7 (.ok ())), .sent 0 (.response 8 (.error .noResponse))]

theorem batches_partition_two_batches : ∃ s,
    ((withPanics (bufferUnorderedBatchPoller Unit Unit Unit ⟨2, 2, 0⟩)
      (BufferUnorderedBatched.panic ⟨2, 2, 0⟩)).logged BufferUnorderedBatched.notes).run twoBatches
      = some (s, twoBatchesLog) ∧ Partitioned 2 s.core s.hand twoBatchesLog := by
  have hrun : ∃ s, ((withPanics (bufferUnorderedBatchPoller Unit Unit Unit ⟨2, 2, 0⟩)
      (BufferUnorderedBatched.panic ⟨2, 2, 0⟩)).logged BufferUnorderedBatched.notes).run twoBatches
      = some (s, twoBatchesLog) := ⟨_, rfl⟩
  obtain ⟨s, hs⟩ := hrun
  exact ⟨s, hs, (batches_partition Unit Unit Unit).1 ⟨2, 2, 0⟩ s twoBatchesLog
    (Lts.reachable_of_run hs)⟩

end Main

end MessageBus
