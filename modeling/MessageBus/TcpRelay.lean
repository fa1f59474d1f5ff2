import MessageBus.Bus
import MessageBus.Lib.Notify
import MessageBus.Proto
import MessageBus.Receiver
import MessageBus.Relay

/-!
# A process with a TCP relay

`TcpRelay` of `src/relays/tcp/mod.rs` of the remote crate, the event loop it is polled by, and the
calls of `src/lib.rs` that go through it. The other receivers of the bus take what they are sent
and send nothing themselves; when they flush, sync or answer is left to the labels. A task that
panics is gone.
-/

namespace MessageBus

/-- The receivers of a bus, among them its relay. -/
structure Endpoint where
  receivers : ReceiverSet
  relayId : UInt64
  inTable : MessageTable
  registered : ⟨relayId, .relay inTable⟩ ∈ receivers.receivers

def Endpoint.bus (e : Endpoint) : BusInner := .new e.receivers

/-- A call under way, a user's or one that serves a `Send` frame. -/
structure Call (S : Type) where
  /-- The user's call it stems from. -/
  origin : ℕ
  kind : CallKind
  msg : S
  /-- The mid of the frame it serves. -/
  frame : Option UInt64
  /-- The receivers it has still to send to, once it has selected them. -/
  todo : Option (List Receiver)

/-- The entries of the item channel, with the call that a `Send` among them stems from. -/
abbrev Outgoing (S : Type) := Option (ProtocolItem S) × ℕ

structure TcpRelay (S : Type) where
  selfId : UInt64
  /-- The task that writes the items has taken the receiving half of their channel. -/
  started : Bool
  /-- The receiving half is not dropped. -/
  rx : Bool
  items : List (Outgoing S)
  /-- The `Exited` of a `Close` waits in the event channel. -/
  exited : Bool
  /-- The calls whose message was put on the item channel. -/
  sent : List (Call S)

namespace TcpRelay

variable {S : Type}

def new : TcpRelay S := ⟨0, false, true, [], false, []⟩

/-- `item_sender.send`. -/
def sendItem (r : TcpRelay S) (item : Option (ProtocolItem S)) (origin : ℕ) :
    Option (TcpRelay S) :=
  if r.rx then some { r with items := r.items ++ [(item, origin)] } else none

/-- `send` of an action; a channel without its receiving half makes it panic. -/
def sendAction (r : TcpRelay S) : Action → Option (TcpRelay S)
  | .init selfId => some (if r.started then r else { r with selfId, started := true })
  | .close => (r.sendItem none 0).map fun r => { r with exited := true }
  | other => r.sendItem (some (.action other)) 0

/-- `send_msg`; where it fails the relay is as it was. -/
def sendMsg [SharedMessage S] (r : TcpRelay S) (mid : UInt64) (c : Call S) : TcpRelay S :=
  if SharedMessage.isShared c.msg then
    match r.sendItem (some (.send mid c.msg c.kind.isReq)) c.origin with
    | some r => { r with sent := r.sent ++ [c] }
    | none => r
  else r

end TcpRelay

/-- Who waits to be notified. -/
inductive Sleeper where
  | inbound
  | caller
  deriving DecidableEq, Repr

/-- The call of the bus that the inbound stream makes for a `Flush` or a `Synchronize`. -/
inductive Round where
  /-- `flush_all` in one of its passes, with its `flushed`. -/
  | flushAll (iter : ℕ) (flushed : Bool)
  | syncAll
  deriving DecidableEq, Repr

namespace Round

def action : Round → Action
  | flushAll _ _ => .flush
  | syncAll => .sync

/-- The round once a receiver has been flushed or synced. -/
def mark : Round → Round
  | flushAll iter _ => flushAll iter true
  | syncAll => syncAll

end Round

/-- Where the stream of inbound frames is. -/
inductive Inbound where
  | reading
  /-- Before the next receiver of a round. -/
  | visiting (round : Round) (todo : List Receiver)
  /-- Suspended until `r` has flushed or synced. -/
  | awaiting (round : Round) (r : Receiver) (todo : List Receiver)
  | ended

def Inbound.resume : Inbound → Inbound
  | awaiting round _ todo => visiting round.mark todo
  | i => i

structure Process (S : Type) where
  closed : Bool
  relay : TcpRelay S
  wrapper : RelayWrapper
  chans : RelayChannels S
  flushed : Notify Sleeper
  synchronized : Notify Sleeper
  inbound : Inbound
  calls : List (Call S)

namespace Process

variable {S : Type}

def new : Process S := ⟨false, .new, .new, fun _ => .waiting, .new, .new, .reading, []⟩

section Inbound

/-- The notification a round waits for on a receiver. -/
def notify (p : Process S) : Round → Notify Sleeper
  | .flushAll _ _ => p.flushed
  | .syncAll => p.synchronized

def setNotify (p : Process S) (n : Notify Sleeper) : Round → Process S
  | .flushAll _ _ => { p with flushed := n }
  | .syncAll => { p with synchronized := n }

def wake (p : Process S) (ws : List Sleeper) : Process S :=
  if .inbound ∈ ws then { p with inbound := p.inbound.resume } else p

def ring (p : Process S) : RelayWake → Process S
  | .flushedOne => { p with flushed := p.flushed.notifyOne.1 }.wake p.flushed.notifyOne.2
  | .synchronized =>
    { p with synchronized := p.synchronized.notifyWaiters.1 }.wake p.synchronized.notifyWaiters.2
  | _ => p

/-- The event loop of the relay on an event of the stream. -/
def handle [Message S] (p : Process S) (ev : Event S GenericError) : Process S :=
  let t := p.wrapper.handleEvent p.chans ev
  let p := t.wakes.foldl ring { p with wrapper := t.wrapper, chans := t.chans }
  if t.loop = .running then p else { p with inbound := .ended }

/-- `sender.send(..).unwrap()` within the stream. -/
def answer (p : Process S) (item : ProtocolItem S) : Process S :=
  match p.relay.sendItem (some item) 0 with
  | some relay => { p with relay, inbound := .reading }
  | none => { p with inbound := .ended }

/-- The call that a `Send` frame makes. -/
def dispatch (p : Process S) (origin : ℕ) (mid : UInt64) (msg : S) (req : Bool) : Call S where
  origin := origin
  kind := if req then .request (.except p.relay.selfId) none none else .sendBoxed .broadcast
  msg := msg
  frame := some mid
  todo := none

/-- The stream reads a frame. -/
def read [SharedMessage S] (c : Codec S) (e : Endpoint) (p : Process S) (pkt : ProtocolPacket)
    (origin : ℕ) : Process S :=
  match pkt.deserialize c with
  | none => { p with inbound := .ended }
  | some (.error _) => p
  | some (.ok (.event ev)) => p.handle ev
  | some (.ok (.action .close)) => p.answer (.event .exited)
  | some (.ok (.action .flush)) =>
    { p with inbound := .visiting (.flushAll 0 false) e.receivers.receivers }
  | some (.ok (.action .sync)) => { p with inbound := .visiting .syncAll e.receivers.receivers }
  | some (.ok (.action _)) => p
  | some (.ok (.send mid msg req)) => { p with calls := p.calls ++ [p.dispatch origin mid msg req] }
  | some (.ok .nop) => { p with inbound := .ended }

/-- The end of a round's list: another pass of `flush_all`, of at most 32, or the answer. -/
def finishRound (e : Endpoint) (p : Process S) : Round → Process S
  | .flushAll iter flushed =>
    if flushed && iter + 1 < 32 then
      { p with inbound := .visiting (.flushAll (iter + 1) false) e.receivers.receivers }
    else p.answer (.event .flushed)
  | .syncAll => p.answer (.event (.synchronized (.ok ())))

/-- Whether a round flushes or syncs the relay. -/
def needs (p : Process S) : Round → Bool
  | .flushAll _ _ => p.wrapper.context.needFlush
  | .syncAll => true

/-- `Receiver::flush` and `Receiver::sync` of the relay up to their `await`. -/
def visitRelay (p : Process S) (round : Round) (r : Receiver) (todo : List Receiver) : Process S :=
  if p.needs round then
    match p.relay.sendAction round.action with
    | some relay =>
      let (n, ready) := (p.notify round).notified .inbound
      { p with
        relay
        inbound := if ready then .visiting round.mark todo else .awaiting round r todo }.setNotify
          n round
    | none => { p with inbound := .ended }
  else { p with inbound := .visiting round todo }

/-- A round goes on to its next receiver; `need` is whether another receiver than the relay needs
it. No `await` lies between the look at `need_flush` and the first poll. -/
def visit (e : Endpoint) (p : Process S) (need : Bool) : Option (Process S) :=
  match p.inbound with
  | .visiting round [] => some (p.finishRound e round)
  | .visiting round (r :: todo) =>
    some (if r.id = e.relayId then p.visitRelay round r todo
      else { p with inbound := if need then .awaiting round r todo else .visiting round todo })
  | _ => none

/-- A receiver other than the relay has flushed or synced. -/
def resume (e : Endpoint) (p : Process S) : Option (Process S) :=
  match p.inbound with
  | .awaiting _ r _ => if r.id = e.relayId then none else some (p.wake [.inbound])
  | _ => none

end Inbound

section Calls

/-- Another task calls `Receiver::flush` or `Receiver::sync` of the relay; where the channel has
lost its receiving half the task panics. -/
def callerAwait (p : Process S) (round : Round) : Process S :=
  match p.relay.sendAction round.action with
  | some relay => { p with relay }.setNotify ((p.notify round).notified .caller).1 round
  | none => p

/-- A task that waits for the relay goes away. -/
def callerCancel (p : Process S) (round : Round) : Process S :=
  p.setNotify ((p.notify round).cancel .caller) round

/-- The first poll of a call, up to the selection of its receivers. -/
def start [Message S] (e : Endpoint) (p : Process S) (i : ℕ) : Option (Process S) :=
  match p.calls[i]? with
  | some ⟨origin, kind, msg, frame, none⟩ =>
    let todo := if p.closed && kind.checksClosed then []
      else kind.select e.bus (Message.typeTag msg)
    some { p with calls := p.calls.set i ⟨origin, kind, msg, frame, some todo⟩ }
  | _ => none

/-- A request enters its waiter under the key the table gives it. -/
def listen (p : Process S) (c : Call S) (key : Slab.Key) : Option (Process S) :=
  if c.kind.isReq then
    (p.wrapper.waiters.insert key c.origin).map fun waiters =>
      { p with wrapper.waiters := waiters }
  else some p

/-- A call sends to its next receiver, the relay only once it gets a permit. A plain message has
the given mid, a request the one of its waiter. -/
def deliver [CloneMessage S] (e : Endpoint) (p : Process S) (i : ℕ) (key : Slab.Key)
    (mid : UInt64) : Option (Process S) :=
  match p.calls[i]? with
  | some ⟨origin, kind, msg, frame, some (r :: todo)⟩ =>
    let c : Call S := ⟨origin, kind, msg, frame, some todo⟩
    if kind.clones && !CloneMessage.tryClone msg || kind.withError && r.id == e.relayId then
      some { p with calls := p.calls.eraseIdx i }
    else if r.id = e.relayId then
      (p.listen c key).bind fun p =>
        let (context, got) := p.wrapper.context.tryReserve (Message.typeTag msg)
        if got then
          some { p with
            wrapper.context := { context with needFlush := true }
            relay := p.relay.sendMsg (if kind.isReq then requestMid key else mid) c
            calls := p.calls.set i c }
        else none
    else some { p with calls := p.calls.set i c }
  | _ => none

/-- The answer to a frame; a response that is no shared message makes the task panic. -/
def answerItem [SharedMessage S] (kind : CallKind) (msg : S)
    (res : Except (Error Unit GenericError) S) (mid : UInt64) : Option (ProtocolItem S) :=
  if kind.isReq then
    match res with
    | .ok resp =>
      if SharedMessage.isShared resp then some (.event (.response mid (.ok resp))) else none
    | .error err => some (.event (.response mid (.error err)))
  else some (.event (.batchComplete (Message.typeTag msg) 1))

/-- A call ends, a request with `res`; one that serves a frame sends its answer. -/
def finish [SharedMessage S] (p : Process S) (i : ℕ) (res : Except (Error Unit GenericError) S) :
    Option (Process S) :=
  match p.calls[i]? with
  | some ⟨_, kind, msg, frame, some []⟩ =>
    let answered := (frame.bind (answerItem kind msg res)).bind fun item =>
      p.relay.sendItem (some item) 0
    some { p with calls := p.calls.eraseIdx i, relay := answered.getD p.relay }
  | _ => none

end Calls

end Process

end MessageBus
