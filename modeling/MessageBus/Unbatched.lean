import MessageBus.Batched
import Mathlib.Logic.Function.Basic

/-!
# The unbatched pollers

`buffer_unordered_poller` and `synchronized_poller` of `src/receivers`, where a handler may panic.
A poller of the second kind shares the mutex of its handler with the item's other subscriptions;
`SynchronizedItem` runs them all, and whichever asks may get the mutex next. The stream keeps its
receiving half. Queues are unbounded.
-/

namespace MessageBus

section BufferUnordered

structure BufferUnorderedConfig where
  maxParallel : ℕ

/-- A spawned task: not polled yet, in the handler, past it, past its `Response`, or gone. -/
inductive CallStage (R E : Type) where
  | spawned
  | handling
  | returned (resp : Except E R)
  | sent (resp : Except E R)
  | panicked

structure CallTask (M R E : Type) where
  mid : UInt64
  msg : M
  stage : CallStage R E

namespace BufferUnordered

/-- Where the loop waits: at `recv`, for the permit of a message, for all permits to flush or to
sync, in `sync`; or past the loop. -/
inductive Pc (M : Type) where
  | recv
  | acquire (mid : UInt64) (msg : M)
  | flushAll
  | syncAll
  | syncing
  | ended
  | aborted

inductive Label (R E : Type) where
  | recv
  | acquire
  | syncDone (resp : Except E Unit)
  | syncPanic
  | start (i : ℕ)
  | finish (i : ℕ) (resp : Except E R)
  | panic (i : ℕ)
  | send (i : ℕ)

end BufferUnordered

structure BufferUnordered (M R E : Type) where
  rx : List (Request M)
  closed : Bool
  pc : BufferUnordered.Pc M
  permits : ℕ
  tasks : List (CallTask M R E)
  /-- The events sent so far. -/
  stx : List (Event R E)
  /-- The items taken off the queue so far. -/
  taken : List (Request M)

namespace BufferUnordered

variable {M R E : Type} (cfg : BufferUnorderedConfig)

/-- `Semaphore::new` panics above `usize::MAX >> 3` permits. -/
def start : BufferUnordered M R E where
  rx := []
  closed := false
  pc := if cfg.maxParallel ≤ 2305843009213693951 then .recv else .aborted
  permits := cfg.maxParallel
  tasks := []
  stx := []
  taken := []

/-- `cfg.max_parallel as u32`. -/
def allPermits : ℕ := cfg.maxParallel % 4294967296

/-- The items the queue accepted. -/
def accepted (s : BufferUnordered M R E) : List (Request M) := s.taken ++ s.rx

def emit (s : BufferUnordered M R E) (ev : Event R E) : BufferUnordered M R E :=
  { s with stx := s.stx ++ [ev] }

/-- The body of the loop for one item, up to its next `await`. -/
def body (s : BufferUnordered M R E) : Request M → BufferUnordered M R E
  | .request mid msg _ => { s with pc := .acquire mid msg }
  | .action (.init _) => s.emit .ready
  | .action .close => { s with closed := true }
  | .action .flush => { s with pc := .flushAll }
  | .action .sync => { s with pc := .syncAll }
  | .action .stats => { s with pc := .aborted, closed := true }

def recv (s : BufferUnordered M R E) : Option (BufferUnordered M R E) :=
  match s.pc, s.rx with
  | .recv, item :: rx => some ({ s with rx := rx, taken := s.taken ++ [item] }.body item)
  | .recv, [] => if s.closed then some { s with pc := .ended } else none
  | _, _ => none

/-- The loop goes on where an `acquire` is served. The permits for a flush are given back at
once. -/
def acquire (s : BufferUnordered M R E) : Option (BufferUnordered M R E) :=
  match s.pc with
  | .acquire mid msg =>
    if 1 ≤ s.permits then
      some { s with
        pc := .recv, permits := s.permits - 1, tasks := s.tasks ++ [⟨mid, msg, .spawned⟩] }
    else none
  | .flushAll =>
    if allPermits cfg ≤ s.permits then some { s.emit .flushed with pc := .recv } else none
  | .syncAll =>
    if allPermits cfg ≤ s.permits then
      some { s with pc := .syncing, permits := s.permits - allPermits cfg }
    else none
  | _ => none

def run (s : BufferUnordered M R E) : Label R E → Option (BufferUnordered M R E)
  | .recv => s.recv
  | .acquire => s.acquire cfg
  | .syncDone resp =>
    match s.pc with
    | .syncing => some
      { s.emit (.synchronized (resp.mapError .other)) with
        pc := .recv, permits := s.permits + allPermits cfg }
    | _ => none
  | .syncPanic =>
    match s.pc with
    | .syncing => some
      { s with pc := .aborted, closed := true, permits := s.permits + allPermits cfg }
    | _ => none
  | .start i =>
    match s.tasks[i]? with
    | some ⟨mid, msg, .spawned⟩ => some { s with tasks := s.tasks.set i ⟨mid, msg, .handling⟩ }
    | _ => none
  | .finish i resp =>
    match s.tasks[i]? with
    | some ⟨mid, msg, .handling⟩ => some
      { s with permits := s.permits + 1, tasks := s.tasks.set i ⟨mid, msg, .returned resp⟩ }
    | _ => none
  | .panic i =>
    match s.tasks[i]? with
    | some ⟨mid, msg, .handling⟩ => some
      { s with permits := s.permits + 1, tasks := s.tasks.set i ⟨mid, msg, .panicked⟩ }
    | _ => none
  | .send i =>
    match s.tasks[i]? with
    | some ⟨mid, msg, .returned resp⟩ => some
      ({ s with tasks := s.tasks.set i ⟨mid, msg, .sent resp⟩ }.emit
        (.response mid (resp.mapError .other)))
    | _ => none

def step (s : BufferUnordered M R E) :
    PollerLabel M (Label R E) → Option (BufferUnordered M R E)
  | .push item => if s.closed then none else some { s with rx := s.rx ++ [item] }
  | .run l => s.run cfg l

end BufferUnordered

/-- `buffer_unordered_poller` with its senders and its tasks. -/
def bufferUnorderedPoller (M R E : Type) (cfg : BufferUnorderedConfig) :
    Lts (BufferUnordered M R E) (PollerLabel M (BufferUnordered.Label R E)) where
  start := .start cfg
  step s l := s.step cfg l

end BufferUnordered

section Synchronized

/-- The functions of the handler behind the mutex, one pair for each subscription: the state a call
leaves and what it returns, nothing where it panics. -/
structure SynchronizedHandler {ι : Type} (M R E : ι → Type) (H : Type) where
  handle (i : ι) : H → M i → H × Option (Except (E i) (R i))
  sync (i : ι) : H → H × Option (Except (E i) Unit)

namespace Subscription

/-- Where a subscription's loop is: at `recv`, waiting for the mutex in the task of a message or for
its sync, in the handler since a state of it, at the event it has still to send, or past the
loop. -/
inductive Pc (M R E H : Type) where
  | recv
  | calling (mid : UInt64) (msg : M)
  | handling (mid : UInt64) (msg : M) (seen : H)
  | returned (mid : UInt64) (resp : Except E R)
  | syncCalling
  | syncing (seen : H)
  | synced (resp : Except E Unit)
  | ended
  | aborted

end Subscription

structure Subscription (M R E H : Type) where
  rx : List (Request M)
  closed : Bool
  pc : Subscription.Pc M R E H
  stx : List (Event R E)
  taken : List (Request M)

namespace Subscription

variable {M R E H : Type}

def start : Subscription M R E H := ⟨[], false, .recv, [], []⟩

def accepted (s : Subscription M R E H) : List (Request M) := s.taken ++ s.rx

def emit (s : Subscription M R E H) (ev : Event R E) : Subscription M R E H :=
  { s with stx := s.stx ++ [ev] }

/-- The body of the loop for one item, up to its next `await`. -/
def body (s : Subscription M R E H) : Request M → Subscription M R E H
  | .request mid msg _ => { s with pc := .calling mid msg }
  | .action (.init _) => s.emit .ready
  | .action .close => { s with closed := true }
  | .action .flush => s.emit .flushed
  | .action .sync => { s with pc := .syncCalling }
  | .action .stats => { s with pc := .aborted, closed := true }

def push (s : Subscription M R E H) (item : Request M) : Option (Subscription M R E H) :=
  if s.closed then none else some { s with rx := s.rx ++ [item] }

def recv (s : Subscription M R E H) : Option (Subscription M R E H) :=
  match s.pc, s.rx with
  | .recv, item :: rx => some ({ s with rx := rx, taken := s.taken ++ [item] }.body item)
  | .recv, [] => if s.closed then some { s with pc := .ended } else none
  | _, _ => none

/-- The task, or the sync, has the mutex and calls the handler. -/
def acquire (s : Subscription M R E H) (h : H) : Option (Subscription M R E H) :=
  match s.pc with
  | .calling mid msg => some { s with pc := .handling mid msg h }
  | .syncCalling => some { s with pc := .syncing h }
  | _ => none

/-- A task that panics takes its loop with it. -/
def endCall (s : Subscription M R E H) : Option (Pc M R E H) → Subscription M R E H
  | some pc => { s with pc }
  | none => { s with pc := .aborted, closed := true }

def send (s : Subscription M R E H) : Option (Subscription M R E H) :=
  match s.pc with
  | .returned mid resp =>
    some { s.emit (.response mid (resp.mapError .other)) with pc := .recv }
  | .synced resp => some { s.emit (.synchronized (resp.mapError .other)) with pc := .recv }
  | _ => none

end Subscription

variable {ι : Type} {M R E : ι → Type} {H : Type}

/-- A call of the handler that is over. -/
inductive ItemCall (M : ι → Type) where
  | handle (i : ι) (mid : UInt64) (msg : M i)
  | sync (i : ι)

structure SynchronizedItem (M R E : ι → Type) (H : Type) where
  subs : ∀ i, Subscription (M i) (R i) (E i) H
  handler : H
  /-- The subscription that holds the mutex. -/
  lock : Option ι
  calls : List (ItemCall M)

inductive ItemLabel (M : ι → Type) where
  | push (i : ι) (item : Request (M i))
  | recv (i : ι)
  | acquire (i : ι)
  | finish (i : ι)
  | send (i : ι)

namespace SynchronizedItem

variable [DecidableEq ι] (f : SynchronizedHandler M R E H) (h₀ : H)

def start : SynchronizedItem M R E H := ⟨fun _ => .start, h₀, none, []⟩

def set (s : SynchronizedItem M R E H) (i : ι) (c : Subscription (M i) (R i) (E i) H) :
    SynchronizedItem M R E H :=
  { s with subs := Function.update s.subs i c }

/-- A call ends: it leaves what it has made of the state it began in. -/
def finish (s : SynchronizedItem M R E H) (i : ι) : Option (SynchronizedItem M R E H) :=
  match (s.subs i).pc with
  | .handling mid msg seen =>
    let (handler, res) := f.handle i seen msg
    some { s.set i ((s.subs i).endCall (res.map (.returned mid))) with
      handler, lock := none, calls := s.calls ++ [.handle i mid msg] }
  | .syncing seen =>
    let (handler, res) := f.sync i seen
    some { s.set i ((s.subs i).endCall (res.map .synced)) with
      handler, lock := none, calls := s.calls ++ [.sync i] }
  | _ => none

def step (s : SynchronizedItem M R E H) : ItemLabel M → Option (SynchronizedItem M R E H)
  | .push i item => ((s.subs i).push item).map (s.set i)
  | .recv i => (s.subs i).recv.map (s.set i)
  | .acquire i =>
    if s.lock.isNone then
      ((s.subs i).acquire s.handler).map fun c => { s.set i c with lock := some i }
    else none
  | .finish i => s.finish f i
  | .send i => (s.subs i).send.map (s.set i)

end SynchronizedItem

/-- A handler item and all its subscriptions, each a `synchronized_poller`. -/
def synchronizedItem [DecidableEq ι] (f : SynchronizedHandler M R E H) (h₀ : H) :
    Lts (SynchronizedItem M R E H) (ItemLabel M) where
  start := .start h₀
  step s l := s.step f l

/-- One of the subscriptions with its senders; the others are part of what runs. -/
def synchronizedPoller [DecidableEq ι] (f : SynchronizedHandler M R E H) (h₀ : H) (i : ι) :
    Lts (SynchronizedItem M R E H) (PollerLabel (M i) (ItemLabel M)) where
  start := .start h₀
  step s
    | .push item => s.step f (.push i item)
    | .run (.push j item) => if j = i then none else s.step f (.push j item)
    | .run l => s.step f l

end Synchronized

end MessageBus
