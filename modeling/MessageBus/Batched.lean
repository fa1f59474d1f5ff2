import MessageBus.Event
import MessageBus.Lib.Lts

/-!
# The batched pollers

`buffer_unordered_batch_poller` and `batch_synchronized_poller` of `src/receivers`. The queue, the
two buffers and the spawned tasks are a `BatchCore`; what a poller waits on between two items is
its `pc`. The buffers left when a loop ends are lost with it. The stream keeps its receiving half,
so that no `stx.send(..).unwrap()` fails; queues are unbounded, and vectors are but for the
capacity a poller reserves for its buffers before the loop.
-/

namespace MessageBus

section Result

variable {R E : Type}

/-- The `while let` of the `Ok` arm: mids the results do not reach get `NoResponse`. -/
def batchAnswers : List (UInt64 × Bool) → List R → List (Event R E)
  | [], _ => []
  | (mid, _) :: mids, r :: re => .response mid (.ok r) :: batchAnswers mids re
  | (mid, _) :: mids, [] => .response mid (.error .noResponse) :: batchAnswers mids []

/-- The events `process_batch_result!` sends, in order. -/
def processBatchResult (resp : Except E (List R)) (mids : List (UInt64 × Bool)) :
    List (Event R E) :=
  match resp with
  | .ok re => batchAnswers mids re
  | .error er =>
    (mids.map fun m => .response m.1 (.error (.other er))) ++ [.error (.other er)]

end Result

/-- Both `Vec::with_capacity(cfg.batch_size)` panic above `isize::MAX` bytes: the element of the
first is a mid and a flag, 16 bytes, that of the second a message. -/
def Reserves (batchSize messageSize : ℕ) : Prop :=
  batchSize * 16 ≤ 9223372036854775807 ∧ batchSize * messageSize ≤ 9223372036854775807

instance (batchSize messageSize : ℕ) : Decidable (Reserves batchSize messageSize) :=
  inferInstanceAs (Decidable (_ ∧ _))

/-- The two vectors handed to a task. -/
structure Batch (M : Type) where
  mids : List (UInt64 × Bool)
  msgs : List M

/-- A spawned task: not polled yet, in the handler, or at the events it still has to send. -/
inductive TaskStage (R E : Type) where
  | spawned
  | handling
  | sending (evs : List (Event R E))

structure BatchTask (M R E : Type) where
  batch : Batch M
  stage : TaskStage R E

structure BatchCore (M R E : Type) where
  rx : List (Request M)
  closed : Bool
  bufferMid : List (UInt64 × Bool)
  buffer : List M
  tasks : List (BatchTask M R E)
  /-- The events sent so far. -/
  stx : List (Event R E)
  /-- The items taken off the queue so far. -/
  taken : List (Request M)
  /-- The batches the handler was called with so far. -/
  handled : List (List M)

namespace BatchCore

variable {M R E : Type} (c : BatchCore M R E)

def start : BatchCore M R E := ⟨[], false, [], [], [], [], [], []⟩

def push (item : Request M) : Option (BatchCore M R E) :=
  if c.closed then none else some { c with rx := c.rx ++ [item] }

/-- The items the queue accepted. -/
def accepted : List (Request M) := c.taken ++ c.rx

def bufferPush (mid : UInt64) (msg : M) (req : Bool) : BatchCore M R E :=
  { c with bufferMid := c.bufferMid ++ [(mid, req)], buffer := c.buffer ++ [msg] }

def buffered : Batch M := ⟨c.bufferMid, c.buffer⟩

/-- `drain(..)` of both buffers. -/
def drain : BatchCore M R E := { c with bufferMid := [], buffer := [] }

def spawn (batch : Batch M) : BatchCore M R E := { c with tasks := c.tasks ++ [⟨batch, .spawned⟩] }

def emit (ev : Event R E) : BatchCore M R E := { c with stx := c.stx ++ [ev] }

def startTask (i : ℕ) : Option (BatchCore M R E) :=
  match c.tasks[i]? with
  | some ⟨batch, .spawned⟩ =>
    some { c with
      tasks := c.tasks.set i ⟨batch, .handling⟩
      handled := c.handled ++ [batch.msgs] }
  | _ => none

def finishTask (i : ℕ) (resp : Except E (List R)) : Option (BatchCore M R E) :=
  match c.tasks[i]? with
  | some ⟨batch, .handling⟩ =>
    some { c with tasks := c.tasks.set i ⟨batch, .sending (processBatchResult resp batch.mids)⟩ }
  | _ => none

def sendTask (i : ℕ) : Option (BatchCore M R E) :=
  match c.tasks[i]? with
  | some ⟨batch, .sending (ev :: evs)⟩ =>
    some ({ c with tasks := c.tasks.set i ⟨batch, .sending evs⟩ }.emit ev)
  | _ => none

/-- `rx.recv()`: an item, the end of the closed queue, or nothing yet. -/
def recv : Option (Option (Request M) × BatchCore M R E) :=
  match c.rx with
  | item :: rx => some (some item, { c with rx := rx, taken := c.taken ++ [item] })
  | [] => if c.closed then some (none, c) else none

end BatchCore

/-- Senders push; the rest is a step of the poller and its tasks. -/
inductive PollerLabel (M ℓ : Type) where
  | push (item : Request M)
  | run (l : ℓ)

section BufferUnordered

/-- With `size_of::<M>()` of the messages the poller is for. -/
structure BufferUnorderedBatchedConfig where
  maxParallel : ℕ
  batchSize : ℕ
  messageSize : ℕ

/-- The poller gets to its loop: `Semaphore::new` panics above `usize::MAX >> 3` permits. -/
def BufferUnorderedBatchedConfig.Starts (cfg : BufferUnorderedBatchedConfig) : Prop :=
  cfg.maxParallel ≤ 2305843009213693951 ∧ Reserves cfg.batchSize cfg.messageSize

instance (cfg : BufferUnorderedBatchedConfig) : Decidable cfg.Starts :=
  inferInstanceAs (Decidable (_ ∧ _))

/-- Where the loop waits: at `recv`, for the permit of a full batch still in the buffer, for that
of a flushed batch, for all permits to flush or to sync, in `sync`; or past the loop. -/
inductive BufferUnorderedPc (M : Type) where
  | recv
  | acquire
  | flushAcquire (batch : Batch M)
  | flushAll
  | syncAll
  | syncing
  | ended
  | aborted

structure BufferUnorderedBatched (M R E : Type) where
  core : BatchCore M R E
  pc : BufferUnorderedPc M
  permits : ℕ

inductive BufferUnorderedBatchedLabel (R E : Type) where
  | recv
  | acquire
  | syncDone (resp : Except E Unit)
  | start (i : ℕ)
  | finish (i : ℕ) (resp : Except E (List R))
  | send (i : ℕ)

namespace BufferUnorderedBatched

variable {M R E : Type} (cfg : BufferUnorderedBatchedConfig)

def start : BufferUnorderedBatched M R E where
  core := .start
  pc := if cfg.Starts then .recv else .aborted
  permits := cfg.maxParallel

/-- `cfg.max_parallel as u32`. -/
def allPermits : ℕ := cfg.maxParallel % 4294967296

/-- The body of the loop for one item, up to its next `await`. -/
def body (s : BufferUnorderedBatched M R E) : Request M → BufferUnorderedBatched M R E
  | .request mid msg req =>
    let core := s.core.bufferPush mid msg req
    { s with core, pc := if cfg.batchSize ≤ core.bufferMid.length then .acquire else .recv }
  | .action (.init _) => { s with core := s.core.emit .ready }
  | .action .close => { s with core.closed := true }
  | .action .flush =>
    if s.core.bufferMid.isEmpty then { s with pc := .flushAll }
    else { s with core := s.core.drain, pc := .flushAcquire s.core.buffered }
  | .action .sync => { s with pc := .syncAll }
  | .action .stats => { s with pc := .aborted }

/-- The loop goes on where an `acquire` is served. -/
def acquire (s : BufferUnorderedBatched M R E) : Option (BufferUnorderedBatched M R E) :=
  match s.pc with
  | .acquire =>
    if 1 ≤ s.permits then
      some ⟨s.core.drain.spawn s.core.buffered, .recv, s.permits - 1⟩
    else none
  | .flushAcquire batch =>
    if 1 ≤ s.permits then some ⟨s.core.spawn batch, .flushAll, s.permits - 1⟩ else none
  | .flushAll =>
    if allPermits cfg ≤ s.permits then some ⟨s.core.emit .flushed, .recv, s.permits⟩ else none
  | .syncAll =>
    if allPermits cfg ≤ s.permits then some ⟨s.core, .syncing, s.permits - allPermits cfg⟩
    else none
  | _ => none

def run (s : BufferUnorderedBatched M R E) :
    BufferUnorderedBatchedLabel R E → Option (BufferUnorderedBatched M R E)
  | .recv =>
    match s.pc with
    | .recv => s.core.recv.map fun
      | (some item, core) => { s with core }.body cfg item
      | (none, core) => { s with core, pc := .ended }
    | _ => none
  | .acquire => s.acquire cfg
  | .syncDone resp =>
    match s.pc with
    | .syncing => some
      ⟨s.core.emit (.synchronized (resp.mapError .other)), .recv, s.permits + allPermits cfg⟩
    | _ => none
  | .start i => (s.core.startTask i).map fun core => { s with core }
  | .finish i resp =>
    (s.core.finishTask i resp).map fun core => { s with core, permits := s.permits + 1 }
  | .send i => (s.core.sendTask i).map fun core => { s with core }

def step (s : BufferUnorderedBatched M R E) :
    PollerLabel M (BufferUnorderedBatchedLabel R E) → Option (BufferUnorderedBatched M R E)
  | .push item => (s.core.push item).map fun core => { s with core }
  | .run l => s.run cfg l

end BufferUnorderedBatched

/-- `buffer_unordered_batch_poller` with its senders and its tasks. -/
def bufferUnorderedBatchPoller (M R E : Type) (cfg : BufferUnorderedBatchedConfig) :
    Lts (BufferUnorderedBatched M R E) (PollerLabel M (BufferUnorderedBatchedLabel R E)) where
  start := .start cfg
  step s l := s.step cfg l

end BufferUnordered

section Synchronized

/-- With `size_of::<M>()` of the messages the poller is for. -/
structure SynchronizedBatchedConfig where
  batchSize : ℕ
  messageSize : ℕ

/-- The poller gets to its loop. -/
def SynchronizedBatchedConfig.Starts (cfg : SynchronizedBatchedConfig) : Prop :=
  Reserves cfg.batchSize cfg.messageSize

instance (cfg : SynchronizedBatchedConfig) : Decidable cfg.Starts :=
  inferInstanceAs (Decidable (Reserves _ _))

inductive SynchronizedPc where
  | recv
  /-- Before the `sync` asks for the lock. -/
  | syncAsk
  | syncWait
  | syncing
  | ended
  | aborted
  deriving DecidableEq, Repr

/-- Who asks for the handler's mutex; `other` is another subscription of the same handler. -/
inductive Holder where
  | task (i : ℕ)
  | sync
  | other
  deriving DecidableEq, Repr

structure SynchronizedBatched (M R E : Type) where
  core : BatchCore M R E
  pc : SynchronizedPc
  /-- The mutex: its holder, then those that wait, in order. -/
  lock : List Holder

inductive SynchronizedBatchedLabel (R E : Type) where
  | recv
  | ask (i : ℕ)
  | start (i : ℕ)
  | finish (i : ℕ) (resp : Except E (List R))
  | send (i : ℕ)
  | askSync
  | startSync
  | syncDone (resp : Except E Unit)
  | askOther
  | otherDone

namespace SynchronizedBatched

variable {M R E : Type} (cfg : SynchronizedBatchedConfig)

def start : SynchronizedBatched M R E where
  core := .start
  pc := if cfg.Starts then .recv else .aborted
  lock := []

/-- The body of the loop for one item, up to its next `await`. -/
def body (s : SynchronizedBatched M R E) : Request M → SynchronizedBatched M R E
  | .request mid msg req =>
    let core := s.core.bufferPush mid msg req
    { s with
      core := if cfg.batchSize ≤ core.bufferMid.length then core.drain.spawn core.buffered
        else core }
  | .action (.init _) => { s with core := s.core.emit .ready }
  | .action .close => { s with core.closed := true }
  | .action .flush =>
    let core := if s.core.bufferMid.isEmpty then s.core else s.core.drain.spawn s.core.buffered
    { s with core := core.emit .flushed }
  | .action .sync => { s with pc := .syncAsk }
  | .action .stats => { s with pc := .aborted }

def run (s : SynchronizedBatched M R E) :
    SynchronizedBatchedLabel R E → Option (SynchronizedBatched M R E)
  | .recv =>
    match s.pc with
    | .recv => s.core.recv.map fun
      | (some item, core) => { s with core }.body cfg item
      | (none, core) => { s with core, pc := .ended }
    | _ => none
  | .ask i =>
    match s.core.tasks[i]? with
    | some ⟨_, .spawned⟩ =>
      if .task i ∈ s.lock then none else some { s with lock := s.lock ++ [.task i] }
    | _ => none
  | .start i =>
    if s.lock.head? = some (.task i) then (s.core.startTask i).map fun core => { s with core }
    else none
  | .finish i resp =>
    if s.lock.head? = some (.task i) then
      (s.core.finishTask i resp).map fun core => { s with core, lock := s.lock.tail }
    else none
  | .send i => (s.core.sendTask i).map fun core => { s with core }
  | .askSync =>
    if s.pc = .syncAsk then some { s with pc := .syncWait, lock := s.lock ++ [.sync] } else none
  | .startSync =>
    if s.pc = .syncWait ∧ s.lock.head? = some .sync then some { s with pc := .syncing } else none
  | .syncDone resp =>
    if s.pc = .syncing then
      some ⟨s.core.emit (.synchronized (resp.mapError .other)), .recv, s.lock.tail⟩
    else none
  | .askOther => some { s with lock := s.lock ++ [.other] }
  | .otherDone => if s.lock.head? = some .other then some { s with lock := s.lock.tail } else none

def step (s : SynchronizedBatched M R E) :
    PollerLabel M (SynchronizedBatchedLabel R E) → Option (SynchronizedBatched M R E)
  | .push item => (s.core.push item).map fun core => { s with core }
  | .run l => s.run cfg l

end SynchronizedBatched

/-- `batch_synchronized_poller` with its senders and its tasks. -/
def batchSynchronizedPoller (M R E : Type) (cfg : SynchronizedBatchedConfig) :
    Lts (SynchronizedBatched M R E) (PollerLabel M (SynchronizedBatchedLabel R E)) where
  start := .start cfg
  step s l := s.step cfg l

end Synchronized

section Panics

/-- A handler panics in the call for a batch, or in its `sync`. -/
inductive Panic where
  | task (i : ℕ)
  | sync
  deriving DecidableEq, Repr

variable {M R E : Type}

/-- A task that panics sends nothing. -/
def BatchCore.panicTask (c : BatchCore M R E) (i : ℕ) : Option (BatchCore M R E) :=
  match c.tasks[i]? with
  | some ⟨batch, .handling⟩ => some { c with tasks := c.tasks.set i ⟨batch, .sending []⟩ }
  | _ => none

/-- Unwinding gives the permits back. -/
def BufferUnorderedBatched.panic (cfg : BufferUnorderedBatchedConfig)
    (s : BufferUnorderedBatched M R E) : Panic → Option (BufferUnorderedBatched M R E)
  | .task i => (s.core.panicTask i).map fun core => { s with core, permits := s.permits + 1 }
  | .sync =>
    match s.pc with
    | .syncing => some
      { s with core.closed := true, pc := .aborted, permits := s.permits + allPermits cfg }
    | _ => none

/-- Unwinding releases the mutex. -/
def SynchronizedBatched.panic (s : SynchronizedBatched M R E) :
    Panic → Option (SynchronizedBatched M R E)
  | .task i =>
    if s.lock.head? = some (.task i) then
      (s.core.panicTask i).map fun core => { s with core, lock := s.lock.tail }
    else none
  | .sync =>
    if s.pc = .syncing then
      some { s with core.closed := true, pc := .aborted, lock := s.lock.tail }
    else none

/-- A poller whose handler may panic. -/
def withPanics {σ ℓ : Type} (P : Lts σ (PollerLabel M ℓ)) (panic : σ → Panic → Option σ) :
    Lts σ (PollerLabel M (ℓ ⊕ Panic)) where
  start := P.start
  step s
    | .push item => P.step s (.push item)
    | .run (.inl l) => P.step s (.run l)
    | .run (.inr p) => panic s p

end Panics

section Handled

/-- The functions of the handler behind the mutex: the state a call leaves, and what it returns. -/
structure BatchSynchronizedHandler (M R E H : Type) where
  handle : H → List M → H × Except E (List R)
  sync : H → H × Except E Unit

/-- A poller and its handler, which no other subscription shares. -/
structure HandledBatches (M R E H : Type) where
  poller : SynchronizedBatched M R E
  handler : H
  /-- The tasks that have got the mutex so far. -/
  order : List ℕ

inductive HandledLabel where
  | recv
  | ask (i : ℕ)
  | start (i : ℕ)
  | finish (i : ℕ)
  | send (i : ℕ)
  | askSync
  | startSync
  | syncDone

namespace HandledBatches

variable {M R E H : Type} (cfg : SynchronizedBatchedConfig) (f : BatchSynchronizedHandler M R E H)

def start (h₀ : H) : HandledBatches M R E H := ⟨.start cfg, h₀, []⟩

/-- What a call has made of the state is there once it is over. -/
def run (s : HandledBatches M R E H) : HandledLabel → Option (HandledBatches M R E H)
  | .recv => (s.poller.run cfg .recv).map fun poller => { s with poller }
  | .ask i => (s.poller.run cfg (.ask i)).map fun poller => { s with poller }
  | .start i =>
    (s.poller.run cfg (.start i)).map fun poller => { s with poller, order := s.order ++ [i] }
  | .finish i =>
    s.poller.core.tasks[i]?.bind fun t =>
      let (handler, resp) := f.handle s.handler t.batch.msgs
      (s.poller.run cfg (.finish i resp)).map fun poller => { s with poller, handler }
  | .send i => (s.poller.run cfg (.send i)).map fun poller => { s with poller }
  | .askSync => (s.poller.run cfg .askSync).map fun poller => { s with poller }
  | .startSync => (s.poller.run cfg .startSync).map fun poller => { s with poller }
  | .syncDone =>
    let (handler, resp) := f.sync s.handler
    (s.poller.run cfg (.syncDone resp)).map fun poller => { s with poller, handler }

def step (s : HandledBatches M R E H) :
    PollerLabel M HandledLabel → Option (HandledBatches M R E H)
  | .push item => (s.poller.step cfg (.push item)).map fun poller => { s with poller }
  | .run l => s.run cfg f l

end HandledBatches

/-- `batch_synchronized_poller` around a handler with a state. -/
def batchSynchronizedHandled {M R E H : Type} (cfg : SynchronizedBatchedConfig)
    (f : BatchSynchronizedHandler M R E H) (h₀ : H) :
    Lts (HandledBatches M R E H) (PollerLabel M HandledLabel) where
  start := .start cfg h₀
  step s l := s.step cfg f l

end Handled

end MessageBus
