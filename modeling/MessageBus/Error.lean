import Mathlib.Data.List.Basic

/-!
# Errors

`src/error.rs`: the bus's error over a message type and a handler error type, with its hand-written
conversions. A `Box<dyn StdSyncSendError>` is kept as what the trait object shows, its tag and
its text; an `erased_serde::Error` as its text. A panic is `none`.
-/

namespace MessageBus

abbrev TypeTag := String

/-- The handler error types: a tag and a `Display`. -/
class StdSyncSendError (E : Type) where
  typeTag_ : TypeTag
  display : E → String

/-- `Box<dyn StdSyncSendError>`. -/
structure DynError where
  typeTag : TypeTag
  description : String
  deriving DecidableEq, Repr

/-- `Box::new(err) as Box<dyn StdSyncSendError>`. -/
def DynError.new {E : Type} [StdSyncSendError E] (err : E) : DynError :=
  ⟨StdSyncSendError.typeTag_ E, StdSyncSendError.display err⟩

structure GenericError where
  typeTag : TypeTag
  description : String
  deriving DecidableEq, Repr

instance : StdSyncSendError GenericError where
  typeTag_ := "messagebus::error::GenericError"
  display e := "GenericError(" ++ e.typeTag ++ "): " ++ e.description

inductive SendError (M : Type) where
  | closed (m : M)
  | full (m : M)
  deriving DecidableEq, Repr

def SendError.mapMsg {M UM : Type} (f : M → UM) : SendError M → SendError UM
  | .closed inner => .closed (f inner)
  | .full inner => .full (f inner)

/-- `Full` becomes `Closed` here. `B` is `Box<dyn Message>`, and `intoBoxed` the message's own
`into_boxed`. -/
def SendError.intoBoxed {M B : Type} (intoBoxed : M → B) : SendError M → SendError B
  | .closed m => .closed (intoBoxed m)
  | .full m => .closed (intoBoxed m)

def SendError.display {M : Type} : SendError M → String
  | .closed _ => "Closed"
  | .full _ => "Full"

inductive Error (M E : Type) where
  | sendError (inner : SendError M)
  | tryAgain (m : M)
  | noResponse
  | noReceivers
  | addListenerError
  | messageCastError
  | notReady
  | other (err : E)
  | serialization (text : String)
  | otherBoxed (err : DynError)
  | wrongMessageType (m : M)
  | typeTagNotRegistered (tt : TypeTag)
  | unknown (text : String)
  deriving DecidableEq, Repr

namespace Error

variable {M UM E UE : Type}

def mapMsg (f : M → UM) : Error M E → Error UM E
  | sendError inner => sendError (inner.mapMsg f)
  | tryAgain inner => tryAgain (f inner)
  | noResponse => noResponse
  | noReceivers => noReceivers
  | serialization s => serialization s
  | other inner => other inner
  | otherBoxed inner => otherBoxed inner
  | wrongMessageType inner => wrongMessageType (f inner)
  | addListenerError => addListenerError
  | messageCastError => messageCastError
  | typeTagNotRegistered tt => typeTagNotRegistered tt
  | notReady => notReady
  | unknown msg => unknown msg

def mapErr (f : E → UE) : Error M E → Error M UE
  | sendError inner => sendError inner
  | tryAgain inner => tryAgain inner
  | noResponse => noResponse
  | noReceivers => noReceivers
  | serialization s => serialization s
  | other inner => other (f inner)
  | otherBoxed inner => otherBoxed inner
  | wrongMessageType inner => wrongMessageType inner
  | addListenerError => addListenerError
  | messageCastError => messageCastError
  | typeTagNotRegistered tt => typeTagNotRegistered tt
  | notReady => notReady
  | unknown msg => unknown msg

def intoDyn [StdSyncSendError E] : Error M E → Error M GenericError
  | sendError inner => sendError inner
  | tryAgain inner => tryAgain inner
  | noResponse => noResponse
  | noReceivers => noReceivers
  | serialization s => serialization s
  | other inner => otherBoxed (DynError.new inner)
  | otherBoxed inner => otherBoxed inner
  | wrongMessageType inner => wrongMessageType inner
  | addListenerError => addListenerError
  | messageCastError => messageCastError
  | typeTagNotRegistered tt => typeTagNotRegistered tt
  | notReady => notReady
  | unknown msg => unknown msg

/-- `ofDyn` is the `From<Box<dyn StdSyncSendError>>` of `U`; `none` is
`panic!("expected boxed error!")`. -/
def map {U : Type} (ofDyn : DynError → U) : Error M E → Option (Error M U)
  | sendError inner => some (sendError inner)
  | tryAgain inner => some (tryAgain inner)
  | noResponse => some noResponse
  | noReceivers => some noReceivers
  | serialization s => some (serialization s)
  | other _ => none
  | otherBoxed inner => some (other (ofDyn inner))
  | wrongMessageType inner => some (wrongMessageType inner)
  | addListenerError => some addListenerError
  | messageCastError => some messageCastError
  | typeTagNotRegistered tt => some (typeTagNotRegistered tt)
  | notReady => some notReady
  | unknown msg => some (unknown msg)

/-- `none` is `panic!("cannot specify type on typed error")`. -/
def specify : Error Unit E → Option (Error M E)
  | sendError _ => none
  | tryAgain _ => none
  | wrongMessageType _ => none
  | noResponse => some noResponse
  | noReceivers => some noReceivers
  | serialization s => some (serialization s)
  | other inner => some (other inner)
  | otherBoxed inner => some (otherBoxed inner)
  | addListenerError => some addListenerError
  | messageCastError => some messageCastError
  | typeTagNotRegistered tt => some (typeTagNotRegistered tt)
  | notReady => some notReady
  | unknown msg => some (unknown msg)

def fromTyped {B : Type} (intoBoxed : M → B) : Error M GenericError → Error B GenericError
  | sendError (.closed m) => sendError (.closed (intoBoxed m))
  | sendError (.full m) => sendError (.full (intoBoxed m))
  | tryAgain inner => tryAgain (intoBoxed inner)
  | wrongMessageType m => wrongMessageType (intoBoxed m)
  | noResponse => noResponse
  | noReceivers => noReceivers
  | serialization s => serialization s
  | other inner => other inner
  | otherBoxed inner => otherBoxed inner
  | addListenerError => addListenerError
  | messageCastError => messageCastError
  | typeTagNotRegistered tt => typeTagNotRegistered tt
  | notReady => notReady
  | unknown msg => unknown msg

/-- The `#[error(..)]` texts. -/
def display [StdSyncSendError E] : Error M E → String
  | sendError inner => "Message Send Error: " ++ inner.display
  | tryAgain _ => "Message receiver dropped try again another receiver"
  | noResponse => "NoResponse"
  | noReceivers => "NoReceivers"
  | addListenerError => "AddListenerError"
  | messageCastError => "MessageCastError"
  | notReady => "Not Ready"
  | other err => "Other(" ++ StdSyncSendError.display err ++ ")"
  | serialization text => "Serialization(" ++ text ++ ")"
  | otherBoxed err => "Other(" ++ err.description ++ ")"
  | wrongMessageType _ => "WrongMessageType()"
  | typeTagNotRegistered tt => "TypeTagNotRegistered(" ++ tt ++ ")"
  | unknown text => "Unknown Error: " ++ text

end Error

end MessageBus
