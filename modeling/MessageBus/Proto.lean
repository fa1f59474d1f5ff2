import MessageBus.Event
import MessageBus.Lib.Utf8Lossy

/-!
# The packets of the wire protocol

`ProtocolItem::serialize` and `ProtocolPacket::deserialize` of `src/proto.rs` of the remote crate.
The serde backends and the message types' registered loaders are a `Codec`. A panic is `none`.
-/

namespace MessageBus

open Utf8Lossy

/-- `init` is `Initialize`. -/
inductive ProtocolHeaderActionKind where
  | nop
  | error
  | send
  | response
  | batchComplete
  | flush
  | flushed
  | synchronize
  | synchronized
  | close
  | exited
  | init
  | ready
  | pause
  deriving DecidableEq, Repr

inductive BodyType where
  | none
  | utf8
  | cbor
  | messagePack
  | json
  | bson
  deriving DecidableEq, Repr

structure ProtocolHeaderFlags where
  bits : UInt32
  deriving DecidableEq, Repr

namespace ProtocolHeaderFlags

def empty : ProtocolHeaderFlags := ⟨0⟩
def typeTag : ProtocolHeaderFlags := ⟨0b00000001⟩
def body : ProtocolHeaderFlags := ⟨0b00000010⟩
def error : ProtocolHeaderFlags := ⟨0b00000100⟩
def argument : ProtocolHeaderFlags := ⟨0b00001000⟩
def ttAndBody : ProtocolHeaderFlags := ⟨typeTag.bits ||| body.bits⟩

def contains (f g : ProtocolHeaderFlags) : Bool := f.bits &&& g.bits == g.bits

def set (f g : ProtocolHeaderFlags) (value : Bool) : ProtocolHeaderFlags :=
  if value then ⟨f.bits ||| g.bits⟩ else ⟨f.bits &&& ~~~ g.bits⟩

end ProtocolHeaderFlags

structure ProtocolHeader where
  kind : ProtocolHeaderActionKind
  typeTag : Option (List UInt8)
  flags : ProtocolHeaderFlags
  bodyType : BodyType
  argument : UInt64
  deriving DecidableEq, Repr

structure ProtocolPacket where
  header : ProtocolHeader
  body : Option (List UInt8)
  deriving DecidableEq, Repr

inductive ProtocolItem (S : Type) where
  | nop
  | event (ev : Event S GenericError)
  | action (a : Action)
  | send (mid : UInt64) (msg : S) (req : Bool)

/-- The remote crate's errors that packets give rise to. -/
inductive RemoteError where
  | protocolParseError (text : String)
  | unknownCodec
  | serdeErased (text : String)
  deriving DecidableEq, Repr

/-- `as_shared_ref` gives a message back where its type is derived as shared. -/
class SharedMessage (S : Type) extends Message S where
  isShared : S → Bool

/-- The two body formats that have a backend. -/
inductive Backend where
  | cbor
  | json
  deriving DecidableEq, Repr

/-- Serde's backends, the registry of message loaders, and the `Debug` text of a type tag. -/
structure Codec (S : Type) where
  encode : Backend → S → Except String (List UInt8)
  registered : TypeTag → Bool
  decode : Backend → TypeTag → List UInt8 → Except String S
  debug : Option TypeTag → String

def BodyType.backend : BodyType → Option Backend
  | cbor => some .cbor
  | json => some .json
  | _ => Option.none

section Codec

variable {S : Type} (c : Codec S)

/-- The buffer as it is after the message is written behind what it held. -/
def genericSerialize (kind : BodyType) (msg : S) (buffer : List UInt8) :
    Except RemoteError (List UInt8) :=
  match kind.backend with
  | some k => ((c.encode k msg).mapError .serdeErased).map (buffer ++ ·)
  | none => .error .unknownCodec

def genericDeserialize {T : Type} (kind : BodyType) (data : List UInt8)
    (f : Backend → List UInt8 → Option T) : Option (Except RemoteError T) :=
  match kind.backend with
  | some k => (f k data).map .ok
  | none => some (.error .unknownCodec)

/-- `TypeRegistry::deserialize`; a loader's error is a `Serialization` error, then specified. -/
def deserializeSharedMessage {B : Type} (tt : TypeTag) (k : Backend) (data : List UInt8) :
    Option (Except (Error B GenericError) S) :=
  if c.registered tt then
    match c.decode k tt data with
    | .ok msg => some (.ok msg)
    | .error text =>
      (Error.serialization text : Error Unit GenericError).specify.map .error
  else some (.error (.typeTagNotRegistered tt))

end Codec

namespace ProtocolItem

variable {S : Type} [SharedMessage S] (c : Codec S)

def pack (kind : ProtocolHeaderActionKind) (typeTag : Option TypeTag) (flags : ProtocolHeaderFlags)
    (bodyType : BodyType) (argument : UInt64) (body : Option (List UInt8)) : ProtocolPacket :=
  ⟨⟨kind, typeTag.map utf8Bytes, flags, bodyType, argument⟩, body⟩

/-- A packet that carries an error's text. -/
def packError (kind : ProtocolHeaderActionKind) (flags : ProtocolHeaderFlags) (argument : UInt64)
    (err : Error Unit GenericError) : ProtocolPacket :=
  pack kind (some "GenericError") flags .utf8 argument (some (utf8Bytes err.display))

/-- A packet that carries a message, if its type is shared and its codec known. -/
def packMessage (kind : ProtocolHeaderActionKind) (flags : ProtocolHeaderFlags)
    (bodyType : BodyType) (argument : UInt64) (msg : S) (buffer : List UInt8) :
    Except RemoteError ProtocolPacket :=
  if SharedMessage.isShared msg then
    (genericSerialize c bodyType msg buffer).map fun body =>
      pack kind (some (Message.typeTag msg)) flags bodyType argument (some body)
  else .error .unknownCodec

def serialize (item : ProtocolItem S) (bodyType : BodyType) (buffer : List UInt8) :
    Option (Except RemoteError ProtocolPacket) :=
  let flags := ProtocolHeaderFlags.empty
  let plain := fun kind argument => some (.ok (pack kind none flags bodyType argument none))
  match item with
  | .nop => plain .nop 0
  | .action .close => plain .close 0
  | .action .flush => plain .flush 0
  | .action (.init _) => plain .init 0
  | .action .sync => plain .synchronize 0
  | .action .stats => none
  | .send mid msg req =>
    some (packMessage c .send (((flags.set .argument req).set .body true).set .typeTag true)
      bodyType mid msg buffer)
  | .event (.response mid res) =>
    let flags := ((flags.set .argument true).set .body true).set .typeTag true
    match res with
    | .ok msg => some (packMessage c .response flags bodyType mid msg buffer)
    | .error err => some (.ok (packError .response (flags.set .error true) mid err))
  | .event (.error err) =>
    some (.ok (packError .error (((flags.set .error true).set .body true).set .typeTag true) 0 err))
  | .event (.batchComplete tt n) =>
    some (.ok (pack .batchComplete (some tt) ((flags.set .typeTag true).set .argument true)
      bodyType n none))
  | .event (.synchronized (.ok _)) => plain .synchronized 0
  | .event (.synchronized (.error err)) =>
    some (.ok (packError .synchronized (((flags.set .body true).set .error true).set .typeTag true)
      0 err))
  | .event (.initFailed err) =>
    some (.ok (packError .ready (((flags.set .body true).set .error true).set .typeTag true) 0 err))
  | .event .ready => plain .ready 0
  | .event .pause => plain .pause 0
  | .event .exited => plain .exited 0
  | .event .flushed => plain .flushed 0
  | .event .stats => none

end ProtocolItem

namespace ProtocolPacket

variable {S : Type} (c : Codec S)

/-- The type tag the decoder works with. -/
def typeTag? (p : ProtocolPacket) : Option TypeTag :=
  if p.header.flags.contains .typeTag then p.header.typeTag.map lossy else none

/-- The decoder's `(body, error)`. -/
def bodyAndError (p : ProtocolPacket) :
    Option (Except RemoteError (Option S × Option (Error Unit GenericError))) :=
  if p.header.flags.contains .error then
    match p.typeTag? with
    | none => none
    | some tt => some (.ok (none, some (.other ⟨tt, (p.body.map lossy).getD ""⟩)))
  else if p.header.flags.contains .ttAndBody then
    match p.body with
    | none => some (.error (.protocolParseError "No body"))
    | some body =>
      (genericDeserialize p.header.bodyType body fun k data =>
        match p.typeTag? with
        | none => none
        | some tt => deserializeSharedMessage (B := S) c tt k data).map fun res =>
          res.map fun res => match res with
            | .ok body => (some body, none)
            | .error err => (none, some (err.mapMsg fun _ => ()))
  else some (.ok (none, none))

/-- The decoder past the body: the match on the kind. -/
def item (p : ProtocolPacket) (body : Option S) (error : Option (Error Unit GenericError)) :
    Option (Except RemoteError (ProtocolItem S)) :=
  let argument := if p.header.flags.contains .argument then some p.header.argument else none
  match p.header.kind with
  | .response =>
    match argument with
    | none => some (.error (.protocolParseError "Event::Response expected argument"))
    | some mid =>
      match error, body with
      | some err, _ => some (.ok (.event (.response mid (.error err))))
      | none, some msg => some (.ok (.event (.response mid (.ok msg))))
      | none, none => some (.error (.protocolParseError "Event::Response expected body"))
  | .synchronized =>
    match error with
    | some err => some (.ok (.event (.synchronized (.error err))))
    | none => some (.ok (.event (.synchronized (.ok ()))))
  | .error =>
    match error with
    | some err => some (.ok (.event (.error err)))
    | none => some (.error (.protocolParseError "Event::Error expected body"))
  | .batchComplete => p.typeTag?.map fun tt => .ok (.event (.batchComplete tt p.header.argument))
  | .flushed => some (.ok (.event .flushed))
  | .exited => some (.ok (.event .exited))
  | .ready => some (.ok (.event .ready))
  | .pause => some (.ok (.event .pause))
  | .init => some (.ok (.action (.init p.header.argument)))
  | .close => some (.ok (.action .close))
  | .flush => some (.ok (.action .flush))
  | .synchronize => some (.ok (.action .sync))
  | .send =>
    match body with
    | some msg => some (.ok (.send p.header.argument msg argument.isSome))
    | none => some (.error (.protocolParseError
        ("Action::Send[" ++ c.debug p.typeTag? ++ "] expected body")))
  | .nop => some (.ok .nop)

def deserialize (p : ProtocolPacket) : Option (Except RemoteError (ProtocolItem S)) :=
  match p.bodyAndError c with
  | none => none
  | some (.error e) => some (.error e)
  | some (.ok (body, error)) => p.item c body error

end ProtocolPacket

end MessageBus
