import MessageBus.Receiver
import Mathlib.Data.Int.Notation

/-!
# A relay: its per-tag counters and its event loop

`RelayWrapper` of `src/relay.rs`. Each message tag has a counter of its own, entered in the map by
the first reservation; `RelayWrapper.handleEvent` is one turn of the loop in `start_polling`.
`relay` runs the loop beside its senders against a peer that answers each accepted message once.
What a remote peer's packets decode to goes to the loop as it is (`ProtocolPacket::deserialize`), so
`exposedRelay` runs it against a peer that sends any events at all; `balance` is what each counter
would be if it did not wrap.
-/

namespace MessageBus

structure RelayReceiverContext where
  limit : UInt64
  processing : UInt64
  deriving DecidableEq, Repr

def RelayReceiverContext.new (limit : UInt64) : RelayReceiverContext := ⟨limit, 0⟩

/-- The `DashMap` of the counters is a partial function. -/
structure RelayContext where
  receivers : TypeTag → Option RelayReceiverContext
  needFlush : Bool
  readyFlag : Bool
  idlingFlag : Bool

namespace RelayContext

def new : RelayContext := ⟨fun _ => none, false, false, true⟩

/-- `contains_key`, and `insert` where it says no. -/
def entry (c : RelayContext) (tt : TypeTag) : RelayContext :=
  if (c.receivers tt).isSome then c
  else { c with receivers := Function.update c.receivers tt (some (.new 16)) }

/-- What follows `receivers.get(tt)` where there is an entry. -/
def modify (c : RelayContext) (tt : TypeTag) (f : UInt64 → UInt64) : RelayContext :=
  { c with
    receivers := Function.update c.receivers tt
      ((c.receivers tt).map fun r => { r with processing := f r.processing }) }

/-- The flag says whether a permit was given. -/
def tryReserve (c : RelayContext) (tt : TypeTag) : RelayContext × Bool :=
  let c := c.entry tt
  match c.receivers tt with
  | some r => if r.processing < r.limit then (c.modify tt (· + 1), true) else (c, false)
  | none => (c, false)

def reserveNotify (c : RelayContext) (tt : TypeTag) : RelayContext := c.entry tt

def incrementProcessing (c : RelayContext) (tt : TypeTag) : RelayContext := c.modify tt (· + 1)

/-- `Permit::drop` of a permit that no send used up. -/
def permitDrop (c : RelayContext) (tt : TypeTag) : RelayContext := c.modify tt (· - 1)

/-- The counter of a tag, `0` where it has no entry. -/
def processing (c : RelayContext) (tt : TypeTag) : ℕ :=
  match c.receivers tt with
  | some r => r.processing.toNat
  | none => 0

end RelayContext

/-- A waiter is the sending half of its channel. -/
structure RelayWrapper where
  context : RelayContext
  waiters : Slab ℕ

def RelayWrapper.new : RelayWrapper := ⟨.new, .empty⟩

inductive RelayWake where
  | closed
  | ready
  | flushedOne
  | synchronized
  | responseOne (tt : TypeTag)
  deriving DecidableEq, Repr

section Loop

variable {B : Type} [Message B]

abbrev RelayChannels (B : Type) := ℕ → Oneshot (Except (Error Unit GenericError) B)

structure RelayTurn (B : Type) where
  wrapper : RelayWrapper
  chans : RelayChannels B
  wakes : List RelayWake
  loop : Loop

/-- The waiter taken for a `Response`, if any; a send that fails is logged. -/
def RelayWrapper.answer (w : RelayWrapper) (chans : RelayChannels B) (mid : UInt64)
    (resp : Except (Error Unit GenericError) B) : RelayWrapper × RelayChannels B :=
  match w.waiters.take mid with
  | (some tx, waiters) =>
    match (chans tx).send resp with
    | some c => ({ w with waiters }, Function.update chans tx c)
    | none => ({ w with waiters }, chans)
  | (none, waiters) => ({ w with waiters }, chans)

/-- One turn of the loop in `start_polling`. -/
def RelayWrapper.handleEvent (w : RelayWrapper) (chans : RelayChannels B) :
    Event B GenericError → RelayTurn B
  | .error _ => ⟨w, chans, [], .running⟩
  | .pause => ⟨{ w with context.readyFlag := false }, chans, [], .running⟩
  | .ready => ⟨{ w with context.readyFlag := true }, chans, [.ready], .running⟩
  | .initFailed _ => ⟨{ w with context.readyFlag := false }, chans, [.ready], .running⟩
  | .exited => ⟨w, chans, [.closed], .ended⟩
  | .flushed => ⟨{ w with context.needFlush := false }, chans, [.flushedOne], .running⟩
  | .synchronized _ => ⟨w, chans, [.synchronized], .running⟩
  | .response mid resp =>
    let tt := match resp with
      | .ok bm => some (Message.typeTag bm)
      | .error _ => none
    let (w, chans) := w.answer chans mid resp
    match tt with
    | some tt =>
      ⟨{ w with context := w.context.modify tt (· - 1) }, chans,
        if (w.context.receivers tt).isSome then [.responseOne tt] else [], .running⟩
    | none => ⟨w, chans, [], .running⟩
  | .batchComplete tt n =>
    ⟨{ w with context := w.context.modify tt (· - n) }, chans,
      if (w.context.receivers tt).isSome then List.replicate n.toNat (.responseOne tt) else [],
      .running⟩
  | .stats => ⟨w, chans, [], .aborted⟩

end Loop

/-- A message the relay has accepted and its peer has not answered. -/
structure InFlight where
  mid : UInt64
  tt : TypeTag
  req : Bool
  deriving DecidableEq, Repr

structure RelayState (B : Type) where
  wrapper : RelayWrapper
  chans : RelayChannels B
  /-- The tags of the permits that are neither used nor dropped. -/
  permits : List TypeTag
  inflight : List InFlight
  reqCount : ℕ
  loop : Loop

inductive RelayLabel (B : Type) where
  | tryReserve (tt : TypeTag)
  | reserveNotify (tt : TypeTag)
  | dropPermit (tt : TypeTag)
  /-- `Receiver::send` with a permit; the inner relay takes the message or refuses it. -/
  | send (m : InFlight) (accepted : Bool)
  | forceSend (m : InFlight) (accepted : Bool)
  /-- A request inserts its waiter under the key the table gives it. -/
  | listen (key : Slab.Key)
  /-- The caller of the `r`-th request goes away. -/
  | cancel (r : ℕ)
  /-- The loop handles the peer's `Response` to the `i`-th message in flight, a request. -/
  | respond (i : ℕ) (resp : Except (Error Unit GenericError) B)
  /-- The loop handles the peer's `BatchComplete` for the `i`-th message in flight, a plain one. -/
  | complete (i : ℕ)
  /-- The loop handles another event of the peer. -/
  | event (ev : Event B GenericError)

/-- The events of a relay's stream that answer no message. -/
def Event.fromPeer {M E : Type} : Event M E → Bool
  | .response _ _ | .batchComplete _ _ | .stats => false
  | _ => true

namespace RelayState

variable {B : Type} [Message B]

def start : RelayState B := ⟨.new, fun _ => .waiting, [], [], 0, .running⟩

def handle (s : RelayState B) (ev : Event B GenericError) : RelayState B :=
  let t := s.wrapper.handleEvent s.chans ev
  { s with wrapper := t.wrapper, chans := t.chans, loop := t.loop }

/-- The end of a send, whichever way it was reserved. -/
def deliver (s : RelayState B) (m : InFlight) (accepted : Bool) : RelayState B :=
  { s with
    wrapper.context.needFlush := true
    inflight := s.inflight ++ if accepted then [m] else [] }

def step (s : RelayState B) : RelayLabel B → Option (RelayState B)
  | .tryReserve tt =>
    let (c, got) := s.wrapper.context.tryReserve tt
    some { s with wrapper.context := c, permits := s.permits ++ if got then [tt] else [] }
  | .reserveNotify tt =>
    some { s with wrapper.context := s.wrapper.context.reserveNotify tt }
  | .dropPermit tt =>
    if tt ∈ s.permits then
      some { s with
        wrapper.context := s.wrapper.context.permitDrop tt
        permits := s.permits.erase tt }
    else none
  | .send m accepted =>
    if m.tt ∈ s.permits then
      some ({ s with permits := s.permits.erase m.tt }.deliver m accepted)
    else none
  | .forceSend m accepted =>
    some ({ s with
      wrapper.context := s.wrapper.context.incrementProcessing m.tt }.deliver m accepted)
  | .listen key =>
    (s.wrapper.waiters.insert key s.reqCount).map fun waiters =>
      { s with wrapper.waiters := waiters, reqCount := s.reqCount + 1 }
  | .cancel r =>
    if r < s.reqCount then some { s with chans := Function.update s.chans r (s.chans r).drop }
    else none
  | .respond i resp =>
    match s.inflight[i]? with
    | some ⟨mid, _, true⟩ =>
      if s.loop = .running then
        some { s.handle (.response mid resp) with inflight := s.inflight.eraseIdx i }
      else none
    | _ => none
  | .complete i =>
    match s.inflight[i]? with
    | some ⟨_, tt, false⟩ =>
      if s.loop = .running then
        some { s.handle (.batchComplete tt 1) with inflight := s.inflight.eraseIdx i }
      else none
    | _ => none
  | .event ev =>
    if s.loop = .running ∧ ev.fromPeer then some (s.handle ev) else none

end RelayState

/-- A relay with its senders, against a peer that answers every accepted message once. -/
def relay (B : Type) [Message B] : Lts (RelayState B) (RelayLabel B) where
  start := .start
  step := RelayState.step

structure ExposedState (B : Type) where
  relay : RelayState B
  balance : TypeTag → ℤ

inductive ExposedLabel (B : Type) where
  | sender (l : RelayLabel B)
  | peer (ev : Event B GenericError)

/-- The steps of those who reserve and send with a permit. -/
def RelayLabel.reserves {B : Type} : RelayLabel B → Bool
  | tryReserve _ | reserveNotify _ | dropPermit _ | send _ _ | listen _ | cancel _ => true
  | forceSend _ _ | respond _ _ | complete _ | event _ => false

namespace ExposedState

variable {B : Type} [Message B]

def start : ExposedState B := ⟨.start, fun _ => 0⟩

/-- The balance with `n` more for a tag that has a counter. -/
def credit (s : ExposedState B) (tt : TypeTag) (n : ℤ) : TypeTag → ℤ :=
  if (s.relay.wrapper.context.receivers tt).isSome then
    Function.update s.balance tt (s.balance tt + n)
  else s.balance

/-- The balance after a step of a sender. -/
def senderBalance (s : ExposedState B) : RelayLabel B → TypeTag → ℤ
  | .tryReserve tt =>
    if (s.relay.wrapper.context.tryReserve tt).2 then
      Function.update s.balance tt (s.balance tt + 1)
    else s.balance
  | .dropPermit tt => s.credit tt (-1)
  | _ => s.balance

/-- The balance after an event of the peer. -/
def peerBalance (s : ExposedState B) : Event B GenericError → TypeTag → ℤ
  | .response _ (.ok bm) => s.credit (Message.typeTag bm) (-1)
  | .batchComplete tt n => s.credit tt (-n.toNat)
  | _ => s.balance

def step (s : ExposedState B) : ExposedLabel B → Option (ExposedState B)
  | .sender l =>
    if l.reserves then (s.relay.step l).map fun relay => ⟨relay, s.senderBalance l⟩ else none
  | .peer ev =>
    if s.relay.loop = .running then some ⟨s.relay.handle ev, s.peerBalance ev⟩ else none

end ExposedState

def exposedRelay (B : Type) [Message B] : Lts (ExposedState B) (ExposedLabel B) where
  start := .start
  step := ExposedState.step

end MessageBus
