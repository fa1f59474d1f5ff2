import MessageBus.Event
import MessageBus.Lib.Lts
import MessageBus.Lib.Slab

/-!
# A local receiver: its counters, its waiter table and its event loop

`ReceiverWrapper` of `src/receiver.rs`. `handleEvent` is one turn of the loop in
`start_polling_events`; it returns the notifications the turn gives, and `Loop.aborted` where the
task panics. `localReceiver` runs the loop beside any number of plain sends and requests, with the
log of which `Response` took which waiter.
-/

namespace MessageBus

structure ReceiverContext where
  limit : UInt64
  processing : Int64
  needFlush : Bool
  readyFlag : Bool
  resendUnusedResp : Bool

namespace ReceiverContext

def new (limit : UInt64) (resend : Bool) : ReceiverContext :=
  ⟨limit, 0, false, false, resend⟩

/-- `try_reserve` undisturbed: the comparison casts the limit to `i64`. -/
def tryReserve (c : ReceiverContext) : Option ReceiverContext :=
  if c.processing < c.limit.toInt64 then some { c with processing := c.processing + 1 } else none

def incrementProcessing (c : ReceiverContext) : ReceiverContext :=
  { c with processing := c.processing + 1 }

end ReceiverContext

/-- The four constructors of `enum Waiter`. -/
inductive WaiterKind where
  | withErrorType
  | withoutErrorType
  | boxed
  | boxedWithError
  deriving DecidableEq, Repr

/-- A waiter with the sending half of its channel. -/
structure Waiter where
  kind : WaiterKind
  tx : ℕ
  deriving DecidableEq, Repr

/-- What a waiter's channel carries. `B` is `Box<dyn Message>`. -/
inductive Reply (R E B : Type) where
  | withErrorType (res : Except (Error Unit E) R)
  | withoutErrorType (res : Except (Error Unit GenericError) R)
  | boxed (res : Except (Error Unit GenericError) B)
  | boxedWithError (res : Except (Error Unit E) B)

structure ReceiverWrapper where
  waiters : Slab Waiter
  context : ReceiverContext

/-- A notification given to one of the context's `Notify`s. -/
inductive Wake where
  | closed
  | ready
  | idle
  | flushedOne
  | synchronized
  | responseOne
  | response
  deriving DecidableEq, Repr

inductive Loop where
  | running
  | ended
  | aborted
  deriving DecidableEq, Repr

section Loop

variable {R E B : Type} [StdSyncSendError E] (intoBoxed : R → B)

/-- The conversion each arm of `response` makes before it sends. -/
def WaiterKind.reply (res : Except (Error Unit E) R) : WaiterKind → Reply R E B
  | .withErrorType => .withErrorType res
  | .withoutErrorType => .withoutErrorType (res.mapError Error.intoDyn)
  | .boxed => .boxed ((res.mapError Error.intoDyn).map intoBoxed)
  | .boxedWithError => .boxedWithError (res.map intoBoxed)

/-- The one-shot channels of the requests, by number. -/
abbrev Channels (R E B : Type) := ℕ → Oneshot (Reply R E B)

structure Turn (R E B : Type) where
  wrapper : ReceiverWrapper
  chans : Channels R E B
  wakes : List Wake
  loop : Loop

/-- `ReceiverWrapper::response`, its unused value left out; the `unwrap` of the send aborts. -/
def response (w : ReceiverWrapper) (chans : Channels R E B) (mid : UInt64)
    (res : Except (Error Unit E) R) : ReceiverWrapper × Channels R E B × Loop :=
  match w.waiters.take mid with
  | (some waiter, waiters) =>
    match (chans waiter.tx).send (waiter.kind.reply intoBoxed res) with
    | some c => ({ w with waiters }, Function.update chans waiter.tx c, .running)
    | none => ({ w with waiters }, chans, .aborted)
  | (none, waiters) => ({ w with waiters }, chans, .running)

/-- One turn of the loop in `start_polling_events`. -/
def handleEvent (w : ReceiverWrapper) (chans : Channels R E B) : Event R E → Turn R E B
  | .error _ => ⟨w, chans, [], .running⟩
  | .pause => ⟨{ w with context := { w.context with readyFlag := false } }, chans, [], .running⟩
  | .ready =>
    ⟨{ w with context := { w.context with readyFlag := true } }, chans, [.ready], .running⟩
  | .initFailed _ =>
    ⟨{ w with context := { w.context with readyFlag := false } }, chans, [.ready], .running⟩
  | .exited => ⟨w, chans, [.closed], .ended⟩
  | .flushed =>
    ⟨{ w with context := { w.context with needFlush := false } }, chans, [.flushedOne], .running⟩
  | .synchronized _ => ⟨w, chans, [.synchronized], .running⟩
  | .response mid res =>
    let prev := w.context.processing
    let w := { w with context := { w.context with processing := prev - 1 } }
    let (w, chans, loop) := response intoBoxed w chans mid res
    ⟨w, chans, (if prev = 1 then [.idle] else []) ++ [.responseOne], loop⟩
  | .batchComplete _ n =>
    ⟨{ w with context := { w.context with processing := w.context.processing - n.toInt64 } },
      chans, [if n > 1 then .response else .responseOne], .running⟩
  | .stats => ⟨w, chans, [], .aborted⟩

end Loop

/-- The mid of a request: its waiter's key with bit 63 set. -/
def requestMid (key : Slab.Key) : UInt64 :=
  UInt64.ofNat key.val ||| (1 : UInt64) <<< (63 : UInt64)

@[simp] theorem index_requestMid (key : Slab.Key) : Slab.index (requestMid key) = key :=
  Slab.index_or_top key

/-- Who put a message on the queue. -/
inductive Source where
  | plain
  | request (r : ℕ)
  deriving DecidableEq, Repr

/-- Where a request's future stands: at `reserve`, or past `send` at the receiving half. -/
inductive Stage where
  | reserving
  | sent
  | gone
  deriving DecidableEq, Repr

structure Req where
  kind : WaiterKind
  key : Slab.Key
  stage : Stage
  deriving DecidableEq, Repr

structure LocalState (R E B : Type) where
  wrapper : ReceiverWrapper
  chans : Channels R E B
  idCounter : UInt64
  /-- The mids drawn from the counter, anywhere in the process, and not pushed here yet. -/
  drawn : List UInt64
  reqs : ℕ → Option Req
  reqCount : ℕ
  /-- The accepted messages whose `Response` the loop has not handled. -/
  pending : List (UInt64 × Source)
  /-- The waiters taken so far, each with whose `Response` took it. -/
  taken : List (ℕ × Source)
  /-- The requests whose `Response` was handled, with it. -/
  answered : List (ℕ × Except (Error Unit E) R)
  loop : Loop

inductive LocalLabel (R E : Type) where
  /-- A plain send draws the next mid. -/
  | fetchId
  /-- A plain send pushes its message, with a permit or by `force_send`. -/
  | push (mid : UInt64) (force : Bool)
  /-- A request inserts its waiter under the key the table gives it. -/
  | request (kind : WaiterKind) (key : Slab.Key)
  /-- A request gets its permit and pushes its message. -/
  | pushRequest (r : ℕ)
  /-- A request's future is dropped, or ends by a refused send. -/
  | cancel (r : ℕ)
  /-- The loop handles the `Response` of the `i`-th pending message. -/
  | respond (i : ℕ) (res : Except (Error Unit E) R)
  /-- The loop handles another event of the stream. -/
  | event (ev : Event R E)

section System

variable {R E B : Type} [StdSyncSendError E] (intoBoxed : R → B) (limit : UInt64)

def LocalState.start : LocalState R E B where
  wrapper := ⟨.empty, .new limit true⟩
  chans := fun _ => .waiting
  idCounter := 1
  drawn := []
  reqs := fun _ => none
  reqCount := 0
  pending := []
  taken := []
  answered := []
  loop := .running

/-- The events a local receiver's poller emits besides `Response`s. -/
def Event.fromPoller : Event R E → Bool
  | .ready | .flushed | .synchronized _ | .error _ => true
  | _ => false

/-- The loop takes an event of `src` off its stream. -/
def LocalState.handle (s : LocalState R E B) (ev : Event R E) : LocalState R E B :=
  let t := handleEvent intoBoxed s.wrapper s.chans ev
  { s with wrapper := t.wrapper, chans := t.chans, loop := t.loop }

/-- The log entries of a `Response` with this mid. -/
def LocalState.log (s : LocalState R E B) (mid : UInt64) (src : Source)
    (res : Except (Error Unit E) R) : LocalState R E B :=
  { s with
    taken := s.taken ++ ((s.wrapper.waiters.take mid).1.map fun w => (w.tx, src)).toList
    answered := s.answered ++ match src with
      | .plain => []
      | .request r => [(r, res)] }

def LocalState.reserve (s : LocalState R E B) (force : Bool) : Option (LocalState R E B) :=
  if force then
    some { s with wrapper.context := s.wrapper.context.incrementProcessing }
  else
    s.wrapper.context.tryReserve.map fun c => { s with wrapper.context := c }

def LocalState.step (s : LocalState R E B) : LocalLabel R E → Option (LocalState R E B)
  | .fetchId =>
    some { s with idCounter := s.idCounter + 1, drawn := s.drawn ++ [s.idCounter] }
  | .push mid force =>
    if mid ∈ s.drawn then
      (s.reserve force).map fun s =>
        { s with drawn := s.drawn.erase mid, pending := s.pending ++ [(mid, .plain)] }
    else none
  | .request kind key =>
    (s.wrapper.waiters.insert key ⟨kind, s.reqCount⟩).map fun waiters =>
      { s with
        wrapper.waiters := waiters
        reqs := Function.update s.reqs s.reqCount (some ⟨kind, key, .reserving⟩)
        reqCount := s.reqCount + 1 }
  | .pushRequest r =>
    match s.reqs r with
    | some ⟨kind, key, .reserving⟩ =>
      (s.reserve false).map fun s =>
        { s with
          reqs := Function.update s.reqs r (some ⟨kind, key, .sent⟩)
          pending := s.pending ++ [(requestMid key, .request r)] }
    | _ => none
  | .cancel r =>
    (s.reqs r).map fun q =>
      { s with
        reqs := Function.update s.reqs r (some { q with stage := .gone })
        chans := Function.update s.chans r (s.chans r).drop }
  | .respond i res =>
    if s.loop = .running then
      s.pending[i]?.map fun p =>
        { (s.log p.1 p.2 res).handle intoBoxed (.response p.1 res) with
          pending := s.pending.eraseIdx i }
    else none
  | .event ev =>
    if s.loop = .running ∧ ev.fromPoller then some (s.handle intoBoxed ev) else none

/-- One local receiver with its senders, its callers and its event loop. -/
def localReceiver : Lts (LocalState R E B) (LocalLabel R E) where
  start := .start limit
  step s l := s.step intoBoxed l

end System

end MessageBus
