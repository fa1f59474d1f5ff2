import MessageBus.TcpRelay

/-!
# The slots of a receiver

`Receiver::send`, `send_boxed` and `force_send` of `src/receiver.rs` for both kinds of receiver. A
send marks its permit used whatever the receiver made of the message. `slotRuns` runs any senders of
one receiver beside `fair`, the count of its slots as it would be if every refused send gave its
slot back.
-/

namespace MessageBus

/-- A local receiver with its queue, or a relay with the counters of its tags. -/
inductive SlotReceiver (S : Type) where
  | typed (context : ReceiverContext) (closed : Bool) (rx : List (Request S))
  | relay (context : RelayContext) (inner : TcpRelay S)

inductive EntryPoint where
  | send
  | sendBoxed
  | forceSend
  deriving DecidableEq, Repr

/-- `TcpRelay::send_msg` with its result. -/
def TcpRelay.trySendMsg {S : Type} [SharedMessage S] (r : TcpRelay S) (mid : UInt64) (msg : S)
    (req : Bool) : Except (Error S GenericError) (TcpRelay S) :=
  if SharedMessage.isShared msg then
    match r.sendItem (some (.send mid msg req)) 0 with
    | some r => .ok r
    | none => .error (.tryAgain msg)
  else .error (.tryAgain msg)

namespace SlotReceiver

variable {S : Type} [SharedMessage S] (isM : S → Bool)

/-- The counter a message of the tag is counted by, `0` where there is none. -/
def slots (r : SlotReceiver S) (tt : TypeTag) : UInt64 :=
  match r with
  | typed context _ _ => context.processing.toUInt64
  | relay context _ => (context.receivers tt).elim 0 fun r => r.processing

def tryReserve (r : SlotReceiver S) (tt : TypeTag) : Option (SlotReceiver S) :=
  match r with
  | typed context closed rx => context.tryReserve.map fun context => typed context closed rx
  | relay context inner =>
    let (context, got) := context.tryReserve tt
    if got then some (relay context inner) else none

/-- `Permit::drop` of a permit that no send used up. -/
def permitDrop (r : SlotReceiver S) (tt : TypeTag) : SlotReceiver S :=
  match r with
  | typed context closed rx => typed { context with processing := context.processing - 1 } closed rx
  | relay context inner => relay (context.permitDrop tt) inner

def incrementProcessing (r : SlotReceiver S) (tt : TypeTag) : SlotReceiver S :=
  match r with
  | typed context closed rx => typed context.incrementProcessing closed rx
  | relay context inner => relay (context.incrementProcessing tt) inner

def setNeedFlush : SlotReceiver S → SlotReceiver S
  | typed context closed rx => typed { context with needFlush := true } closed rx
  | relay context inner => relay { context with needFlush := true } inner

/-- The send under the three entry points. A boxed message is cast to the receiver's own type, a
typed one's handle is unwrapped. -/
def sendInner (boxed : Bool) (r : SlotReceiver S) (mid : UInt64) (msg : S) (req : Bool) :
    Option (Except (Error S GenericError) (SlotReceiver S)) :=
  match r with
  | typed context closed rx =>
    if isM msg then
      if closed then some (.error (.sendError (.closed msg)))
      else some (.ok (typed context closed (rx ++ [.request mid msg req])))
    else if boxed then some (.error .messageCastError) else none
  | relay context inner =>
    some ((inner.trySendMsg mid msg req).map fun inner => relay context inner)

/-- A call with the permit it was given, if it takes one; a panic is `none`. -/
def call (ep : EntryPoint) (r : SlotReceiver S) (mid : UInt64) (msg : S) (req : Bool) :
    Option (SlotReceiver S × Except (Error S GenericError) Unit) :=
  let r := if ep = .forceSend then r.incrementProcessing (Message.typeTag msg) else r
  (sendInner isM (ep = .sendBoxed) r mid msg req).map fun
    | .ok r => (r.setNeedFlush, .ok ())
    | .error err => (r.setNeedFlush, .error err)

/-- The receiver once the call has the permit it needs. -/
def reserved (ep : EntryPoint) (r : SlotReceiver S) (tt : TypeTag) : Option (SlotReceiver S) :=
  if ep = .forceSend then some r else r.tryReserve tt

/-- What a reservation for the tag adds to: the one counter of a local receiver, or the relay's
counter of that tag where it has one. -/
def counts (r : SlotReceiver S) (tt t : TypeTag) : Bool :=
  match r with
  | typed _ _ _ => true
  | relay context _ => t == tt && (context.receivers tt).isSome

/-- The event loop handles the answer to a message of the tag. -/
def answer (r : SlotReceiver S) (tt : TypeTag) : SlotReceiver S := r.permitDrop tt

/-- The queue closes, or the relay's channel loses its receiving half. -/
def shut : SlotReceiver S → SlotReceiver S
  | typed context _ rx => typed context true rx
  | relay context inner => relay context { inner with rx := false }

end SlotReceiver

structure SlotState (S : Type) where
  receiver : SlotReceiver S
  /-- The tags of the permits that are neither used nor dropped. -/
  permits : List TypeTag
  fair : TypeTag → UInt64

inductive SlotLabel (S : Type) where
  | reserve (tt : TypeTag)
  | dropPermit (tt : TypeTag)
  | call (ep : EntryPoint) (mid : UInt64) (msg : S) (req : Bool)
  | answer (tt : TypeTag)
  | shut

namespace SlotState

variable {S : Type} [SharedMessage S] (isM : S → Bool)

/-- `fair` with `n` more for the tag. -/
def credit (s : SlotState S) (r : SlotReceiver S) (tt : TypeTag) (n : UInt64) :
    TypeTag → UInt64 :=
  fun t => if r.counts tt t then s.fair t + n else s.fair t

def step (s : SlotState S) : SlotLabel S → Option (SlotState S)
  | .reserve tt =>
    (s.receiver.tryReserve tt).map fun r => ⟨r, s.permits ++ [tt], s.credit r tt 1⟩
  | .dropPermit tt =>
    if tt ∈ s.permits then
      some ⟨s.receiver.permitDrop tt, s.permits.erase tt, s.credit s.receiver tt (-1)⟩
    else none
  | .call ep mid msg req =>
    let tt := Message.typeTag msg
    if ep = .forceSend ∨ tt ∈ s.permits then
      (s.receiver.call isM ep mid msg req).map fun
        | (r, .ok _) =>
          if ep = .forceSend then ⟨r, s.permits, s.credit s.receiver tt 1⟩
          else ⟨r, s.permits.erase tt, s.fair⟩
        | (r, .error _) =>
          if ep = .forceSend then ⟨r, s.permits, s.fair⟩
          else ⟨r, s.permits.erase tt, s.credit s.receiver tt (-1)⟩
    else none
  | .answer tt =>
    some { s with receiver := s.receiver.answer tt, fair := s.credit s.receiver tt (-1) }
  | .shut => some { s with receiver := s.receiver.shut }

end SlotState

/-- A receiver with its senders. -/
def slotRuns {S : Type} [SharedMessage S] (isM : S → Bool) (r : SlotReceiver S) :
    Lts (SlotState S) (SlotLabel S) where
  start := ⟨r, [], r.slots⟩
  step s l := s.step isM l

end MessageBus
