import MessageBus.Slots

/-!
# The sending operations of a bus

The thirteen public ones of `src/lib.rs`, with the methods of `Receiver` in `src/receiver.rs` that
they call, each up to its return or up to the response it waits for. `CallSetting` is what an
operation meets on its way: the slot a waiter table gives, and what the other tasks make of a
receiver until it gives a permit. `accepted` lists the items that went on a queue.
-/

namespace MessageBus

/-- Types as `TypeId` tells them apart, each with its tag. -/
class TypeTagged (T : Type) where
  typeTag_ : T → TypeTag

/-- A `dyn Message` with its type. -/
class TypedMessage (S : Type) (T : outParam Type) [TypeTagged T] extends CloneMessage S where
  typeId : S → T
  typeTag_eq : ∀ msg, Message.typeTag msg = TypeTagged.typeTag_ (typeId msg)

section Receiver

/-- The message, response and error types of a local receiver. -/
structure LocalTypes (T : Type) where
  m : T
  r : T
  e : T

namespace LocalTypes

variable {T : Type} [DecidableEq T] (l : LocalTypes T)

def castSendTyped (m : T) : Bool := l.m = m

def castRetOnly (r : T) : Bool := l.r = r

def castErrorOnly (e : T) : Bool := l.e = e

def castRetAndError (r e : T) : Bool := l.r = r ∧ l.e = e

end LocalTypes

inductive BusReceiver (S T : Type) where
  | typed (types : LocalTypes T) (wrapper : ReceiverWrapper) (closed : Bool) (rx : List (Request S))
  | relay (table : MessageTable) (wrapper : RelayWrapper) (inner : TcpRelay S)

variable {S T : Type} [TypeTagged T] [DecidableEq T]

namespace BusReceiver

def kind : BusReceiver S T → ReceiverKind
  | typed types _ _ _ => .localTypes (TypeTagged.typeTag_ types.m) (TypeTagged.typeTag_ types.r)
      (TypeTagged.typeTag_ types.e)
  | relay table _ _ => .relay table

def slots : BusReceiver S T → SlotReceiver S
  | typed _ wrapper closed rx => .typed wrapper.context closed rx
  | relay _ wrapper inner => .relay wrapper.context inner

def withSlots : BusReceiver S T → SlotReceiver S → BusReceiver S T
  | typed types wrapper _ _, .typed context closed rx =>
    typed types { wrapper with context } closed rx
  | relay table wrapper _, .relay context inner => relay table { wrapper with context } inner
  | r, _ => r

/-- The waiter table's entries. -/
def waiters : BusReceiver S T → Slab.Key → Option Waiter
  | typed _ wrapper _ _, key => wrapper.waiters.slot key
  | relay _ wrapper _, key => (wrapper.waiters.slot key).map fun tx => ⟨.boxed, tx⟩

def tryReserve [SharedMessage S] (r : BusReceiver S T) (tt : TypeTag) : Option (BusReceiver S T) :=
  (r.slots.tryReserve tt).map r.withSlots

def permitDrop [SharedMessage S] (r : BusReceiver S T) (tt : TypeTag) : BusReceiver S T :=
  r.withSlots (r.slots.permitDrop tt)

def incrementProcessing [SharedMessage S] (r : BusReceiver S T) (tt : TypeTag) :
    BusReceiver S T :=
  r.withSlots (r.slots.incrementProcessing tt)

section Waiter

variable (r : BusReceiver S T) (key : Option Slab.Key) (tx : ℕ)

/-- The `add_response_listener` of the receiver's wrapper. -/
def addResponseListener (kind : WaiterKind) :
    Except (Error Unit GenericError) (Slab.Key × BusReceiver S T) :=
  match r, key with
  | _, none => .error .addListenerError
  | typed types wrapper closed rx, some key =>
    match wrapper.waiters.insert key ⟨kind, tx⟩ with
    | some waiters => .ok (key, typed types { wrapper with waiters } closed rx)
    | none => .error .addListenerError
  | relay table wrapper inner, some key =>
    match wrapper.waiters.insert key tx with
    | some waiters => .ok (key, relay table { wrapper with waiters } inner)
    | none => .error .addListenerError

def addResponseWaiterBoxed :
    Option (Except (Error Unit GenericError) (Slab.Key × BusReceiver S T)) :=
  some (r.addResponseListener key tx .boxed)

/-- A relay has no typed wrapper: `unimplemented!()`. -/
def addResponseWaiterBoxedWe (e : T) :
    Option (Except (Error Unit GenericError) (Slab.Key × BusReceiver S T)) :=
  match r with
  | typed types _ _ _ =>
    if types.castErrorOnly e then some (r.addResponseListener key tx .boxedWithError) else none
  | relay _ _ _ => none

def addResponseWaiter (resp : T) :
    Option (Except (Error Unit GenericError) (Slab.Key × BusReceiver S T)) :=
  match r with
  | typed types _ _ _ =>
    if types.castRetOnly resp then some (r.addResponseListener key tx .withoutErrorType) else none
  | relay _ _ _ => some (r.addResponseListener key tx .boxed)

/-- A relay has no typed wrapper: `unimplemented!()`. -/
def addResponseWaiterWe (resp e : T) :
    Option (Except (Error Unit GenericError) (Slab.Key × BusReceiver S T)) :=
  match r with
  | typed types _ _ _ =>
    if types.castRetAndError resp e then some (r.addResponseListener key tx .withErrorType)
    else none
  | relay _ _ _ => none

end Waiter

variable [TypedMessage S T]

def isM : BusReceiver S T → S → Bool
  | typed types _ _ _, msg => types.castSendTyped (TypedMessage.typeId msg)
  | relay _ _ _, _ => false

/-- `send`, `send_boxed` or `force_send`, with the permit it takes, if any. -/
def send (ep : EntryPoint) (r : BusReceiver S T) (mid : UInt64) (msg : S) (req : Bool) :
    Option (BusReceiver S T × Except (Error S GenericError) Unit) :=
  (r.slots.call r.isM ep mid msg req).map fun res => (r.withSlots res.1, res.2)

end BusReceiver

end Receiver

structure LiveBus (S T : Type) where
  ids : List UInt64
  distinct : ids.Nodup
  receivers : UInt64 → BusReceiver S T
  closed : Bool
  idCounter : UInt64

structure CallSetting (S : Type) where
  /-- The slot a waiter table gives; `none`, or one that is taken, where it has no room. -/
  key : Option Slab.Key
  /-- The request's one-shot channel. -/
  tx : ℕ
  /-- The receiver of an id once it is the operation's turn to reserve, if that ever comes. -/
  later : UInt64 → SlotReceiver S → Option (SlotReceiver S)

/-- No other task acts. -/
def CallSetting.quiet {S : Type} (key : Option Slab.Key) (tx : ℕ) : CallSetting S :=
  ⟨key, tx, fun _ r => some r⟩

inductive CallEnd (S : Type) where
  | returned (res : Except (Error S GenericError) Unit)
  /-- The request is accepted, and its caller waits for the response. -/
  | awaiting (id : UInt64) (key : Slab.Key)
  /-- A receiver gives no permit. -/
  | waiting
  | panicked

structure CallOutcome (S T : Type) where
  bus : LiveBus S T
  accepted : List (UInt64 × Request S)
  done : CallEnd S

namespace Error

variable {M UM E UE : Type}

/-- `map_err(|_| unimplemented!())`. -/
def mapErrUnimplemented : Error M E → Option (Error M UE)
  | sendError inner => some (sendError inner)
  | tryAgain inner => some (tryAgain inner)
  | noResponse => some noResponse
  | noReceivers => some noReceivers
  | serialization s => some (serialization s)
  | other _ => none
  | otherBoxed inner => some (otherBoxed inner)
  | wrongMessageType inner => some (wrongMessageType inner)
  | addListenerError => some addListenerError
  | messageCastError => some messageCastError
  | typeTagNotRegistered tt => some (typeTagNotRegistered tt)
  | notReady => some notReady
  | unknown msg => some (unknown msg)

/-- `map_msg(|_| unimplemented!())`. -/
def mapMsgUnimplemented : Error M E → Option (Error UM E)
  | sendError _ => none
  | tryAgain _ => none
  | noResponse => some noResponse
  | noReceivers => some noReceivers
  | serialization s => some (serialization s)
  | other inner => some (other inner)
  | otherBoxed inner => some (otherBoxed inner)
  | wrongMessageType _ => none
  | addListenerError => some addListenerError
  | messageCastError => some messageCastError
  | typeTagNotRegistered tt => some (typeTagNotRegistered tt)
  | notReady => some notReady
  | unknown msg => some (unknown msg)

/-- The two in turn. -/
def mapUnimplemented (err : Error M E) : Option (Error UM UE) :=
  (err.mapErrUnimplemented : Option (Error M UE)).bind mapMsgUnimplemented

end Error

/-- The end of a call by an error that a conversion may panic on. -/
def CallEnd.failed {S : Type} : Option (Error S GenericError) → CallEnd S
  | some err => .returned (.error err)
  | none => .panicked

namespace LiveBus

section Parts

variable {S T : Type} (b : LiveBus S T)

def set (id : UInt64) (r : BusReceiver S T) : LiveBus S T :=
  { b with receivers := Function.update b.receivers id r }

/-- `ID_COUNTER.fetch_add(1)`, whose result is the old counter. -/
def fetchId : LiveBus S T := { b with idCounter := b.idCounter + 1 }

variable [TypeTagged T]

def inner : BusInner :=
  { BusInner.new ⟨b.ids.map fun id => ⟨id, (b.receivers id).kind⟩, by
      simpa [Function.comp_def] using b.distinct⟩ with closed := b.closed }

variable [DecidableEq T] [TypedMessage S T]

/-- `reserve(&tt).await`; no permit comes where it is `none`. A `force_send` takes none. -/
def reserve (env : CallSetting S) (ep : EntryPoint) (id : UInt64) (tt : TypeTag) :
    Option (LiveBus S T) :=
  if ep = .forceSend then some b
  else
    (env.later id (b.receivers id).slots).bind fun r =>
      (((b.receivers id).withSlots r).tryReserve tt).map (b.set id)

def permitDrop (tt : TypeTag) (id : UInt64) : LiveBus S T :=
  b.set id ((b.receivers id).permitDrop tt)

/-- A send to a receiver with its permit in hand. Where it panics its permit is dropped, and a
`force_send` has counted its message. -/
def sendTo (ep : EntryPoint) (id : UInt64) (mid : UInt64) (msg : S) (req : Bool) :
    LiveBus S T × Option (Except (Error S GenericError) Unit) :=
  match (b.receivers id).send ep mid msg req with
  | some (r, res) => (b.set id r, some res)
  | none =>
    if ep = .forceSend then
      (b.set id ((b.receivers id).incrementProcessing (Message.typeTag msg)), none)
    else (b.permitDrop (Message.typeTag msg) id, none)

/-- The item a send puts on its receiver's queue, if it is accepted. -/
def acceptedItem {E : Type} (id : UInt64) (mid : UInt64) (msg : S) (req : Bool) :
    Except E Unit → List (UInt64 × Request S)
  | .ok _ => [(id, .request mid msg req)]
  | .error _ => []

/-- A copy to each receiver in turn, once it gives a permit; what becomes of the copy is ignored,
and where there is none its `unwrap` panics. -/
def sendEach (env : CallSetting S) (ep : EntryPoint) (mid : UInt64) (tt : TypeTag)
    (copy : Option S) : LiveBus S T → List UInt64 → CallOutcome S T
  | b, [] => ⟨b, [], .returned (.ok ())⟩
  | b, id :: rs =>
    match copy with
    | none => ⟨b, [], .panicked⟩
    | some msg =>
      match b.reserve env ep id tt with
      | none => ⟨b, [], .waiting⟩
      | some b =>
        match b.sendTo ep id mid msg false with
        | (b, none) => ⟨b, [], .panicked⟩
        | (b, some res) =>
          let o := sendEach env ep mid tt copy b rs
          { o with accepted := acceptedItem id mid msg false res ++ o.accepted }

/-- The one send an operation returns the result of. -/
def sendOneTo (ep : EntryPoint) (id : UInt64) (mid : UInt64) (msg : S) : CallOutcome S T :=
  match b.sendTo ep id mid msg false with
  | (b, some res) => ⟨b, acceptedItem id mid msg false res, .returned res⟩
  | (b, none) => ⟨b, [], .panicked⟩

/-- `Bus::try_reserve`; the permits collected so far are dropped where a receiver gives none. -/
def tryReserve (tt : TypeTag) :
    LiveBus S T → List UInt64 → List UInt64 → LiveBus S T × Option (List UInt64)
  | b, [], permits => (b, some permits)
  | b, r :: rs, permits =>
    match (b.receivers r).tryReserve tt with
    | some prmt => tryReserve tt (b.set r prmt) rs (permits ++ [r])
    | none => (permits.foldl (fun b id => b.permitDrop tt id) b, none)

/-- The loop `while counter < total` of `try_send_ext` with `n` rounds to go: what it accepts, and
the pairs it leaves, unless an `unwrap` panics. -/
def sendHead (mid : UInt64) (msg : S) : ℕ → LiveBus S T → List (UInt64 × UInt64) →
    LiveBus S T × List (UInt64 × Request S) × Option (List (UInt64 × UInt64))
  | 0, b, iter => (b, [], some iter)
  | _ + 1, b, [] => (b, [], none)
  | n + 1, b, (_, r) :: iter =>
    match b.sendTo .send r mid msg false with
    | (b, some res) =>
      let (b, accepted, left) := sendHead mid msg n b iter
      (b, acceptedItem r mid msg false res ++ accepted, left)
    | (b, none) =>
      (iter.foldl (fun b pr => b.permitDrop (Message.typeTag msg) pr.1) b, [], none)

section Request

variable (env : CallSetting S) (id : UInt64)

/-- A request once its waiter is in the table: the reservation and the send, with the conversion of
its error. -/
def sendRequest (ep : EntryPoint) (tt : TypeTag) (key : Slab.Key) (req : S)
    (conv : Error S GenericError → Option (Error S GenericError)) : CallOutcome S T :=
  match b.reserve env ep id tt with
  | none => ⟨b, [], .waiting⟩
  | some b =>
    match b.sendTo ep id (requestMid key) req true with
    | (b, some (.ok ())) => ⟨b, [(id, .request (requestMid key) req true)], .awaiting id key⟩
    | (b, some (.error err)) => ⟨b, [], .failed (conv err)⟩
    | (b, none) => ⟨b, [], .panicked⟩

/-- A request enters its waiter, the error of a full table converted, and goes on. -/
def listen (waiter : Option (Except (Error Unit GenericError) (Slab.Key × BusReceiver S T)))
    (conv : Error Unit GenericError → Option (Error S GenericError))
    (next : LiveBus S T → Slab.Key → CallOutcome S T) : CallOutcome S T :=
  match waiter with
  | some (.ok (key, r)) => next (b.set id r) key
  | some (.error err) => ⟨b, [], .failed (conv err)⟩
  | none => ⟨b, [], .panicked⟩

end Request

end Parts

section Operations

variable {S T : Type} [TypeTagged T] [DecidableEq T] [TypedMessage S T] (b : LiveBus S T)
  (env : CallSetting S)

/-- `lookup.get(&(tt, None, None))`, empty where there is no entry. -/
def receiversOf (tt : TypeTag) : List UInt64 :=
  ((b.inner.lookup (tt, none, none)).getD []).map (·.id)

def selectReceivers (tid : TypeTag) (options : SendOptions) (rid eid : Option TypeTag)
    (isReq : Bool) : List UInt64 :=
  (b.inner.selectReceivers tid options rid eid isReq).map (·.id)

/-- `Err(SendError::Closed(msg).into())`. -/
def refuseClosed (msg : S) : CallOutcome S T :=
  ⟨b, [], .returned (.error (.sendError (.closed msg)))⟩

def trySendExt (msg : S) (_options : SendOptions) : CallOutcome S T :=
  if b.closed then b.refuseClosed msg
  else
    let tt := Message.typeTag msg
    let mid := b.idCounter
    let b := b.fetchId
    let rs := b.receiversOf tt
    match tryReserve tt b rs [] with
    | (b, none) => ⟨b, [], .returned (.error (.sendError (.full msg)))⟩
    | (b, some permits) =>
      match sendHead mid msg (rs.length - 1) b (permits.zip rs) with
      | (b, accepted, none) => ⟨b, accepted, .panicked⟩
      | (b, accepted, some []) => ⟨b, accepted, .returned (.ok ())⟩
      | (b, accepted, some ((_, r) :: _)) =>
        let o := b.sendOneTo .send r mid msg
        match o.done with
        | .returned _ => ⟨o.bus, accepted ++ o.accepted, .returned (.ok ())⟩
        | done => ⟨o.bus, accepted, done⟩

def trySend (msg : S) : CallOutcome S T := b.trySendExt msg .broadcast

def sendExt (msg : S) (_options : SendOptions) : CallOutcome S T :=
  if b.closed then b.refuseClosed msg
  else
    let tt := Message.typeTag msg
    sendEach env .send b.idCounter tt (some msg) b.fetchId (b.fetchId.receiversOf tt)

def forceSendExt (msg : S) (_options : SendOptions) : CallOutcome S T :=
  if b.closed then b.refuseClosed msg
  else
    let tt := Message.typeTag msg
    sendEach (.quiet none 0) .forceSend b.idCounter tt (some msg) b.fetchId
      (b.fetchId.receiversOf tt)

def trySendOne (msg : S) : CallOutcome S T :=
  if b.closed then b.refuseClosed msg
  else
    let tt := Message.typeTag msg
    let mid := b.idCounter
    let b := b.fetchId
    match b.receiversOf tt with
    | rs :: _ =>
      match (b.receivers rs).tryReserve tt with
      | some permits => (b.set rs permits).sendOneTo .send rs mid msg
      | none => ⟨b, [], .returned (.error (.sendError (.full msg)))⟩
    | [] => ⟨b, [], .returned (.error .noReceivers)⟩

/-- The first of the receivers, once it gives a permit, or `NoReceivers`. -/
def sendFirst (ep : EntryPoint) (mid : UInt64) (tt : TypeTag) (msg : S) :
    List UInt64 → CallOutcome S T
  | rs :: _ =>
    match b.reserve env ep rs tt with
    | some b => b.sendOneTo ep rs mid msg
    | none => ⟨b, [], .waiting⟩
  | [] => ⟨b, [], .returned (.error .noReceivers)⟩

def sendOne (msg : S) : CallOutcome S T :=
  if b.closed then b.refuseClosed msg
  else
    let tt := Message.typeTag msg
    b.fetchId.sendFirst env .send b.idCounter tt msg (b.fetchId.receiversOf tt)

/-- The closed flag is not looked at. -/
def request (req : S) (options : SendOptions) (resp : T) : CallOutcome S T :=
  let tid := TypeTagged.typeTag_ (TypedMessage.typeId req)
  match b.selectReceivers tid options (some (TypeTagged.typeTag_ resp)) none true with
  | rc :: _ =>
    b.listen rc ((b.receivers rc).addResponseWaiter env.key env.tx resp) Error.specify
      fun b key => b.sendRequest env rc .send tid key req some
  | [] => ⟨b, [], .returned (.error .noReceivers)⟩

/-- The closed flag is not looked at. -/
def requestWe (req : S) (options : SendOptions) (resp e : T) : CallOutcome S T :=
  let tid := TypeTagged.typeTag_ (TypedMessage.typeId req)
  match b.selectReceivers tid options (some (TypeTagged.typeTag_ resp))
      (some (TypeTagged.typeTag_ e)) true with
  | rc :: _ =>
    b.listen rc ((b.receivers rc).addResponseWaiterWe env.key env.tx resp e)
      Error.mapUnimplemented
      fun b key => b.sendRequest env rc .send tid key req Error.mapErrUnimplemented
  | [] => ⟨b, [], .returned (.error .noReceivers)⟩

/-- `try_clone_boxed`. -/
def tryCloneBoxed (msg : S) : Option S := if CloneMessage.tryClone msg then some msg else none

/-- Every receiver gets a clone, the first selected one at the end. -/
def sendBoxed (msg : S) (options : SendOptions) : CallOutcome S T :=
  if b.closed then b.refuseClosed msg
  else
    let tt := Message.typeTag msg
    let each := sendEach env .sendBoxed b.idCounter tt (tryCloneBoxed msg) b.fetchId
    match b.fetchId.selectReceivers tt options none none false with
    | [] => ⟨b.fetchId, [], .returned (.ok ())⟩
    | first :: iter => each (iter ++ [first])

def sendBoxedOne (msg : S) (options : SendOptions) : CallOutcome S T :=
  if b.closed then b.refuseClosed msg
  else
    let tt := Message.typeTag msg
    b.fetchId.sendFirst env .sendBoxed b.idCounter tt msg
      (b.fetchId.selectReceivers tt options none none false)

def requestBoxed (req : S) (options : SendOptions) : CallOutcome S T :=
  if b.closed then b.refuseClosed req
  else
    let tt := Message.typeTag req
    match b.selectReceivers tt options none none true with
    | rc :: _ =>
      b.listen rc ((b.receivers rc).addResponseWaiterBoxed env.key env.tx) Error.mapUnimplemented
        fun b key => b.sendRequest env rc .sendBoxed tt key req some
    | [] => ⟨b, [], .returned (.error .noReceivers)⟩

def requestBoxedWe (req : S) (options : SendOptions) (e : T) : CallOutcome S T :=
  if b.closed then b.refuseClosed req
  else
    let tt := Message.typeTag req
    match b.selectReceivers tt options none (some (TypeTagged.typeTag_ e)) true with
    | rc :: _ =>
      b.listen rc ((b.receivers rc).addResponseWaiterBoxedWe env.key env.tx e)
        Error.mapUnimplemented
        fun b key => b.sendRequest env rc .sendBoxed tt key req Error.mapErrUnimplemented
    | [] => ⟨b, [], .returned (.error .noReceivers)⟩

section Deserialize

variable (c : Codec S) (tt : TypeTag) (de : Backend × List UInt8)

/-- `deserialize_shared_message(..)?` and what follows it. -/
def deserialized (next : S → CallOutcome S T) : CallOutcome S T :=
  match (deserializeSharedMessage c tt de.1 de.2 : Option (Except (Error S GenericError) S)) with
  | some (.ok msg) => next msg
  | some (.error err) => ⟨b, [], .returned (.error err)⟩
  | none => ⟨b, [], .panicked⟩

def sendDeserializeOne (_options : SendOptions) : CallOutcome S T :=
  if b.closed then ⟨b, [], .returned (.error .noResponse)⟩
  else
    let mid := b.idCounter
    let b := b.fetchId
    match b.receiversOf tt with
    | rs :: _ => b.deserialized c tt de fun msg => b.sendFirst env .sendBoxed mid tt msg [rs]
    | [] => ⟨b, [], .returned (.error .noReceivers)⟩

/-- The result of `add_response_waiter_boxed` is unwrapped. -/
def requestDeserialize (options : SendOptions) : CallOutcome S T :=
  if b.closed then ⟨b, [], .returned (.error .noResponse)⟩
  else
    match b.selectReceivers tt options none none true with
    | rc :: _ =>
      b.listen rc ((b.receivers rc).addResponseWaiterBoxed env.key env.tx) (fun _ => none)
        fun b key => b.deserialized c tt de fun msg =>
          b.sendRequest env rc .sendBoxed tt key msg some
    | [] => ⟨b, [], .returned (.error .noReceivers)⟩

end Deserialize

end Operations

end LiveBus

/-- A call of one of the public sending operations. -/
inductive Operation (S T : Type) where
  | trySendExt (msg : S) (options : SendOptions)
  | sendExt (msg : S) (options : SendOptions)
  | forceSendExt (msg : S) (options : SendOptions)
  | trySendOne (msg : S)
  | sendOne (msg : S)
  | request (req : S) (options : SendOptions) (resp : T)
  | requestWe (req : S) (options : SendOptions) (resp e : T)
  | sendBoxed (msg : S) (options : SendOptions)
  | sendBoxedOne (msg : S) (options : SendOptions)
  | requestBoxed (req : S) (options : SendOptions)
  | requestBoxedWe (req : S) (options : SendOptions) (e : T)
  | sendDeserializeOne (tt : TypeTag) (de : Backend × List UInt8) (options : SendOptions)
  | requestDeserialize (tt : TypeTag) (de : Backend × List UInt8) (options : SendOptions)

def Operation.run {S T : Type} [TypeTagged T] [DecidableEq T] [TypedMessage S T] (c : Codec S)
    (env : CallSetting S) (b : LiveBus S T) : Operation S T → CallOutcome S T
  | trySendExt msg options => b.trySendExt msg options
  | sendExt msg options => b.sendExt env msg options
  | forceSendExt msg options => b.forceSendExt msg options
  | trySendOne msg => b.trySendOne msg
  | sendOne msg => b.sendOne env msg
  | request req options resp => b.request env req options resp
  | requestWe req options resp e => b.requestWe env req options resp e
  | sendBoxed msg options => b.sendBoxed env msg options
  | sendBoxedOne msg options => b.sendBoxedOne env msg options
  | requestBoxed req options => b.requestBoxed env req options
  | requestBoxedWe req options e => b.requestBoxedWe env req options e
  | sendDeserializeOne tt de options => b.sendDeserializeOne env c tt de options
  | requestDeserialize tt de options => b.requestDeserialize env c tt de options

end MessageBus
