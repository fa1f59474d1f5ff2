import MessageBus.Error

/-!
# Actions, events and queue items

The bus talks to a receiver's poller through `Request`s and hears back through `Event`s
(`src/receiver.rs`, `src/receivers/mod.rs`). The statistics an `Event::Stats` carries are read
nowhere and left out.
-/

namespace MessageBus

/-- What the bus reads of a `dyn Message`. -/
class Message (M : Type) where
  typeTag : M → TypeTag

inductive Action where
  | init (id : UInt64)
  | flush
  | sync
  | close
  | stats
  deriving DecidableEq, Repr

inductive Event (M E : Type) where
  | response (mid : UInt64) (res : Except (Error Unit E) M)
  | synchronized (res : Except (Error Unit E) Unit)
  | batchComplete (tt : TypeTag) (n : UInt64)
  | error (err : Error Unit E)
  | initFailed (err : Error Unit E)
  | stats
  | flushed
  | exited
  | ready
  | pause

namespace Event

variable {M U E : Type}

def mapMsg (f : M → U) : Event M E → Event U E
  | response mid res => response mid (res.map f)
  | synchronized res => synchronized res
  | batchComplete tt cnt => batchComplete tt cnt
  | error err => error err
  | initFailed err => initFailed err
  | stats => stats
  | flushed => flushed
  | exited => exited
  | ready => ready
  | pause => pause

/-- The mid a `Response` answers. -/
def mid? : Event M E → Option UInt64
  | response mid _ => some mid
  | _ => none

end Event

/-- An item of a local receiver's queue. -/
inductive Request (M : Type) where
  | action (a : Action)
  | request (mid : UInt64) (msg : M) (req : Bool)
  deriving DecidableEq, Repr

def Request.msg? {M : Type} : Request M → Option M
  | .request _ msg _ => some msg
  | .action _ => none

end MessageBus
