import MessageBus.Writers

/-!
# The writer task of the TCP relay among its connections

`TcpRelay::connections`, and the writer task of `TcpRelay::send` with what it tells the relay's
event stream of each connection. The stream's two receiving halves go away one by one as soon as the
relay's loop ends, by the `Exited` of a close or of the peer, or by a panic; what is then told to a
half that is gone fails its `unwrap`, and that ends the task.
-/

namespace MessageBus

variable {S : Type}

/-- What the task tells next: the reading half to the stream, then `Ready`; or, past the inner loop,
`Pause`. An `unwrap` that fails is `panicked`. -/
inductive TcpTell where
  | nothing
  | stream
  | ready
  | pause
  | panicked
  deriving DecidableEq

structure TcpTask (S : Type) where
  writer : TcpWriter S
  tell : TcpTell
  /-- `connections` is in its inner stream, of a bound listener or of a client's attempts. -/
  inner : Bool
  streamReceiver : Bool
  eventReceiver : Bool
  /-- The events sent so far. -/
  events : List (Event S GenericError)

inductive TcpTaskLabel (S : Type) where
  /-- A step of the writer but for its connections. -/
  | write (l : TcpLabel S)
  /-- The outer stream of `connections` goes on: a server binds. -/
  | outer (ok : Bool)
  /-- The inner one: an `accept` or a `connect`. -/
  | attempt (ok : Bool)
  | tell
  | dropStreamReceiver
  | dropEventReceiver

/-- The writer waits for a connection. -/
def TcpPc.isConnecting : TcpPc S → Bool
  | connecting => true
  | _ => false

namespace TcpTask

variable [SharedMessage S] (serverMode : Bool) (c : Codec S) (cbor : PacketCbor)

def start : TcpTask S := ⟨.start, .nothing, false, true, true, []⟩

/-- The inner loop's end, by a marker or a broken connection, has the `Pause` behind it. -/
def write (s : TcpTask S) (l : TcpLabel S) : Option (TcpTask S) :=
  (s.writer.step c cbor l).map fun writer =>
    { s with writer, tell := if writer.pc.isConnecting then .pause else .nothing }

/-- `incoming.next()`, in the outer stream: only a bind that fails ends it. -/
def outer (s : TcpTask S) (ok : Bool) : Option (TcpTask S) :=
  if s.writer.pc.isConnecting && !s.inner then
    if serverMode && !ok then
      (s.writer.step c cbor .noConnection).map fun writer => { s with writer }
    else some { s with inner := true }
  else none

/-- In the inner one: an attempt that fails ends it. -/
def attempt (s : TcpTask S) (ok : Bool) : Option (TcpTask S) :=
  if s.inner then
    if ok then (s.writer.step c cbor .connect).map fun writer => { s with writer, tell := .stream }
    else if s.writer.pc.isConnecting then some { s with inner := false } else none
  else none

def emit (s : TcpTask S) (ev : Event S GenericError) : TcpTask S :=
  if s.eventReceiver then { s with events := s.events ++ [ev], tell := .nothing }
  else { s with tell := .panicked }

def step (s : TcpTask S) : TcpTaskLabel S → Option (TcpTask S)
  | .write (.put item) =>
    if s.tell = .panicked then none
    else (s.writer.step c cbor (.put item)).map fun writer => { s with writer }
  | .write .connect => none
  | .write .noConnection => none
  | .write l => if s.tell = .nothing then s.write c cbor l else none
  | .outer ok => if s.tell = .nothing then s.outer serverMode c cbor ok else none
  | .attempt ok => if s.tell = .nothing then s.attempt c cbor ok else none
  | .tell =>
    match s.tell with
    | .stream => some { s with tell := if s.streamReceiver then .ready else .panicked }
    | .ready => some (s.emit .ready)
    | .pause => some (s.emit .pause)
    | .nothing => none
    | .panicked => none
  | .dropStreamReceiver => some { s with streamReceiver := false }
  | .dropEventReceiver => some { s with eventReceiver := false }

end TcpTask

/-- The writer task of a `TcpRelay` in one of its modes. -/
def tcpTask [SharedMessage S] (serverMode : Bool) (c : Codec S) (cbor : PacketCbor) :
    Lts (TcpTask S) (TcpTaskLabel S) where
  start := .start
  step s l := s.step serverMode c cbor l

end MessageBus
