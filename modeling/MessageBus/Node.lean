import MessageBus.Served
import MessageBus.Serving

/-!
# A relay's process and its local receivers

`node` runs a process whose relay reads a given sequence of frames beside the local receivers of its
bus, each of them a poller with its event loop. A message carries the number of the call that sends
it. When another relay of the bus flushes or syncs is left to the labels.
-/

namespace MessageBus

/-- A local receiver's poller; the queue holds the messages with their calls. -/
structure LocalPoller (S : Type) where
  R : Type
  E : Type
  errors : StdSyncSendError E
  intoBoxed : R → S
  limit : UInt64
  σ : Type
  ℓ : Type
  lts : Lts σ (PollerLabel (S × ℕ) ℓ)
  view : PollerView σ R E
  /-- The messages the queue has accepted. -/
  enqueued : σ → List (S × ℕ)
  /-- Those whose handler has returned. -/
  returned : σ → List (S × ℕ)

def CallTask.returned? {M R E : Type} (t : CallTask M R E) : Option M :=
  match t.stage with
  | .returned _ | .sent _ => some t.msg
  | _ => none

def Event.isResponse {M E : Type} : Event M E → Bool
  | .response _ _ => true
  | _ => false

def Subscription.Pc.isReturned {M R E H : Type} : Subscription.Pc M R E H → Bool
  | .returned _ _ => true
  | _ => false

/-- The loop calls the handler for one message after the other, and answers each that returns. -/
def Subscription.returned {M R E H : Type} (s : Subscription M R E H) : List M :=
  (s.taken.filterMap Request.msg?).take
    (s.stx.countP Event.isResponse + if s.pc.isReturned then 1 else 0)

namespace LocalPoller

variable {S : Type}

instance (L : LocalPoller S) : StdSyncSendError L.E := L.errors

def bufferUnordered {R E : Type} [errors : StdSyncSendError E] (intoBoxed : R → S)
    (limit : UInt64) (cfg : BufferUnorderedConfig) : LocalPoller S where
  R := R
  E := E
  errors := errors
  intoBoxed := intoBoxed
  limit := limit
  σ := BufferUnordered (S × ℕ) R E
  ℓ := BufferUnordered.Label R E
  lts := bufferUnorderedPoller (S × ℕ) R E cfg
  view := BufferUnordered.view
  enqueued s := s.accepted.filterMap Request.msg?
  returned s := s.tasks.filterMap CallTask.returned?

def synchronized {ι H : Type} [DecidableEq ι] {R E : ι → Type}
    (f : SynchronizedHandler (fun _ => S × ℕ) R E H) (h₀ : H) (i : ι)
    [errors : StdSyncSendError (E i)] (intoBoxed : R i → S) (limit : UInt64) : LocalPoller S where
  R := R i
  E := E i
  errors := errors
  intoBoxed := intoBoxed
  limit := limit
  σ := SynchronizedItem (fun _ => S × ℕ) R E H
  ℓ := ItemLabel fun _ : ι => S × ℕ
  lts := synchronizedPoller f h₀ i
  view := SynchronizedItem.view i
  enqueued s := (s.subs i).accepted.filterMap Request.msg?
  returned s := (s.subs i).returned

/-- The pollers that call their handler for one message at a time. -/
inductive Unbatched : LocalPoller S → Prop
  | bufferUnordered {R E : Type} [StdSyncSendError E] (intoBoxed : R → S) (limit : UInt64)
      (cfg : BufferUnorderedConfig) : Unbatched (.bufferUnordered (E := E) intoBoxed limit cfg)
  | synchronized {ι H : Type} [DecidableEq ι] {R E : ι → Type}
      (f : SynchronizedHandler (fun _ => S × ℕ) R E H) (h₀ : H) (i : ι) [StdSyncSendError (E i)]
      (intoBoxed : R i → S) (limit : UInt64) : Unbatched (.synchronized f h₀ i intoBoxed limit)

end LocalPoller

/-- A receiver other than the relay and than other relays. -/
def Endpoint.isLocal (e : Endpoint) (r : Receiver) : Bool :=
  match r.kind with
  | .localTypes _ _ _ => r.id != e.relayId
  | .relay _ => false

structure LocalReceiver {S : Type} (L : LocalPoller S) where
  served : ServedState L.σ L.R L.E S
  /-- The sends between their push and their `set_need_flush`. -/
  midway : ℕ
  flushed : Notify Sleeper
  synchronized : Notify Sleeper

inductive ReceiverLabel {S : Type} (L : LocalPoller S) where
  /-- The poller or one of its tasks takes a step. -/
  | run (l : L.ℓ)
  /-- The event loop handles the next event. -/
  | turn
  | endStream
  /-- A send sets `need_flush`. -/
  | mark
  /-- Another task calls `Receiver::flush` or `Receiver::sync`. -/
  | callerAwait (round : Round)
  | callerCancel (round : Round)
  /-- Another task pushes an action for which it does not wait here. -/
  | push (a : Action)
  | listen (key : Slab.Key) (w : Waiter)
  | hangUp (tx : ℕ)

namespace LocalReceiver

variable {S : Type} {L : LocalPoller S}

def start (L : LocalPoller S) : LocalReceiver L := ⟨.start L.limit L.lts, 0, .new, .new⟩

def serve (r : LocalReceiver L) (l : ServedLabel (S × ℕ) L.ℓ) : Option (LocalReceiver L) :=
  (r.served.step L.intoBoxed L.lts L.view l).map fun served => { r with served }

def notify (r : LocalReceiver L) : Round → Notify Sleeper
  | .flushAll _ _ => r.flushed
  | .syncAll => r.synchronized

def setNotify (r : LocalReceiver L) (n : Notify Sleeper) : Round → LocalReceiver L
  | .flushAll _ _ => { r with flushed := n }
  | .syncAll => { r with synchronized := n }

def cancel (r : LocalReceiver L) (w : Sleeper) : LocalReceiver L :=
  { r with flushed := r.flushed.cancel w, synchronized := r.synchronized.cancel w }

/-- Whether a round flushes or syncs the receiver. -/
def needs (r : LocalReceiver L) : Round → Bool
  | .flushAll _ _ => r.served.wrapper.context.needFlush
  | .syncAll => true

/-- `Receiver::flush` and `Receiver::sync` up to their `await`, and whether they are over with that;
they do not wait where the queue refuses the action. -/
def await (r : LocalReceiver L) (round : Round) (w : Sleeper) : LocalReceiver L × Bool :=
  match r.serve (.push (.action round.action)) with
  | some r =>
    let (n, ready) := (r.notify round).notified w
    (r.setNotify n round, ready)
  | none => (r, true)

/-- A call sends its message once it gets a permit; a request enters its waiter first. -/
def accept (r : LocalReceiver L) (d : Call S) (key : Slab.Key) (mid : UInt64) :
    Option (LocalReceiver L) :=
  (if d.kind.isReq then r.serve (.listen key ⟨.boxed, d.origin⟩) else some r).bind fun r =>
    r.served.wrapper.context.tryReserve.map fun context =>
      let r := { r with served.wrapper.context := context }
      let mid := if d.kind.isReq then requestMid key else mid
      let r := (r.serve (.push (.request mid (d.msg, d.origin) d.kind.isReq))).getD r
      { r with midway := r.midway + 1 }

def ring (r : LocalReceiver L × List Sleeper) : Wake → LocalReceiver L × List Sleeper
  | .flushedOne =>
    ({ r.1 with flushed := r.1.flushed.notifyOne.1 }, r.2 ++ r.1.flushed.notifyOne.2)
  | .synchronized => ({ r.1 with synchronized := r.1.synchronized.notifyWaiters.1 },
      r.2 ++ r.1.synchronized.notifyWaiters.2)
  | _ => r

/-- The notifications of the turn the event loop takes next. -/
def wakes (r : LocalReceiver L) : List Wake :=
  match (L.view.stx r.served.poller)[r.served.heard]? with
  | some ev => (handleEvent L.intoBoxed r.served.wrapper r.served.chans ev).wakes
  | none => []

/-- A step, with the sleepers it wakes. -/
def step (r : LocalReceiver L) : ReceiverLabel L → Option (LocalReceiver L × List Sleeper)
  | .run l => (r.serve (.run l)).map (·, [])
  | .turn => (r.serve .turn).map fun r' => r.wakes.foldl ring (r', [])
  | .endStream => (r.serve .endStream).map (·, [])
  | .mark =>
    if 0 < r.midway then
      some ({ r with served.wrapper.context.needFlush := true, midway := r.midway - 1 }, [])
    else none
  | .callerAwait round => some ((r.await round .caller).1, [])
  | .callerCancel round => some (r.setNotify ((r.notify round).cancel .caller) round, [])
  | .push a => (r.serve (.push (.action a))).map (·, [])
  | .listen key w => (r.serve (.listen key w)).map (·, [])
  | .hangUp tx => (r.serve (.hangUp tx)).map (·, [])

end LocalReceiver

structure Node (S : Type) (loc : UInt64 → LocalPoller S) where
  proc : Process S
  locals : ∀ id, LocalReceiver (loc id)
  /-- How many of the frames are read. -/
  read : ℕ
  /-- The calls that users have made. -/
  issued : ℕ

inductive NodeLabel (S : Type) (loc : UInt64 → LocalPoller S) where
  /-- A user's call of the bus. -/
  | call (kind : CallKind) (msg : S)
  | act (l : ProcLabel S)
  | write
  | read
  | receiver (id : UInt64) (l : ReceiverLabel (loc id))

namespace Node

variable {S : Type} [CloneMessage S] {loc : UInt64 → LocalPoller S} (c : Codec S) (e : Endpoint)
  (frames : List ProtocolPacket)

def start : Node S loc := ⟨.new, fun id => .start (loc id), 0, 0⟩

def setLocal (s : Node S loc) (id : UInt64) (r : LocalReceiver (loc id)) : Node S loc :=
  { s with locals := Function.update s.locals id r }

/-- A call sends to its next receiver; a local one takes the message. -/
def deliver (s : Node S loc) (i : ℕ) (key : Slab.Key) (mid : UInt64) : Option (Node S loc) :=
  (s.proc.deliver e i key mid).bind fun proc =>
    match s.proc.calls[i]? with
    | some ⟨origin, kind, msg, frame, some (r :: todo)⟩ =>
      if e.isLocal r && !(kind.clones && !CloneMessage.tryClone msg) then
        ((s.locals r.id).accept ⟨origin, kind, msg, frame, some todo⟩ key mid).map fun l =>
          { s.setLocal r.id l with proc }
      else some { s with proc }
    | _ => none

/-- The round of the inbound stream goes on; a local receiver says whether it needs it. -/
def visit (s : Node S loc) (need : Bool) : Option (Node S loc) :=
  match s.proc.inbound with
  | .visiting round (r :: _) =>
    if e.isLocal r then
      if (s.locals r.id).needs round then
        let (l, ready) := (s.locals r.id).await round .inbound
        (s.proc.visit e true).map fun proc =>
          { s.setLocal r.id l with proc := if ready then proc.wake [.inbound] else proc }
      else (s.proc.visit e false).map fun proc => { s with proc }
    else (s.proc.visit e need).map fun proc => { s with proc }
  | _ => (s.proc.visit e need).map fun proc => { s with proc }

/-- A local receiver wakes the stream where it waits for it. -/
def wake (s : Node S loc) (id : UInt64) (ws : List Sleeper) : Node S loc :=
  match s.proc.inbound with
  | .awaiting _ r _ =>
    if e.isLocal r && r.id == id then { s with proc := s.proc.wake ws } else s
  | _ => s

/-- A receiver that is neither local nor the relay has flushed or synced. -/
def resume (s : Node S loc) : Option (Node S loc) :=
  match s.proc.inbound with
  | .awaiting _ r _ =>
    if e.isLocal r then none else (s.proc.resume e).map fun proc => { s with proc }
  | _ => none

def act (s : Node S loc) : ProcLabel S → Option (Node S loc)
  | .deliver i key mid => s.deliver e i key mid
  | .visit need => s.visit e need
  | .resume => s.resume e
  | .exit => (s.proc.act e .exit).map fun proc =>
    { s with proc, locals := fun id => (s.locals id).cancel .inbound }
  | l => (s.proc.act e l).map fun proc => { s with proc }

def step (s : Node S loc) : NodeLabel S loc → Option (Node S loc)
  | .call kind msg =>
    some { s with
      proc.calls := s.proc.calls ++ [⟨frames.length + s.issued, kind, msg, none, none⟩]
      issued := s.issued + 1 }
  | .act l => s.act e l
  | .write => s.proc.take.map fun proc => { s with proc }
  | .read =>
    match s.proc.relay.started, s.proc.inbound, frames[s.read]? with
    | true, .reading, some pkt =>
      some { s with proc := s.proc.read c e pkt s.read, read := s.read + 1 }
    | _, _, _ => none
  | .receiver id l =>
    ((s.locals id).step l).map fun (r, ws) => (s.setLocal id r).wake e id ws

end Node

/-- A process whose peer writes these frames, with its local receivers, any users and any order of
steps. -/
def node {S : Type} [CloneMessage S] (loc : UInt64 → LocalPoller S) (c : Codec S) (e : Endpoint)
    (frames : List ProtocolPacket) : Lts (Node S loc) (NodeLabel S loc) where
  start := .start
  step := Node.step c e frames

end MessageBus
