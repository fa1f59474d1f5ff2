import MessageBus.Framing
import MessageBus.Lib.Lts

/-!
# The writer tasks of the TCP and the QUIC relay

The tasks that `TcpRelay::send` and `QuicRelay::send` spawn for `Action::Init`: they take the items
off the outgoing queue and write each as a frame, on one connection after another. An item whose
write fails is kept for the next connection, and lost where none comes. The queue's senders and the
relay's event stream stay alive; an item that does not serialise makes the task panic.
-/

namespace MessageBus

variable {S : Type}

/-- The queue of a writer task, with the buffer it reuses. -/
structure Outbox (S : Type) where
  /-- A `none` is the marker of `Action::Close`. -/
  rx : List (Option (ProtocolItem S))
  /-- The item of a write that failed. -/
  item : Option (ProtocolItem S)
  headerBuff : List UInt8
  /-- What has been put on the queue so far. -/
  put : List (Option (ProtocolItem S))

namespace Outbox

def new : Outbox S := ⟨[], none, [], []⟩

def push (o : Outbox S) (item : Option (ProtocolItem S)) : Outbox S :=
  { o with rx := o.rx ++ [item], put := o.put ++ [item] }

/-- The item kept, or the next of the queue; a marker is `none`. -/
def take (o : Outbox S) : Option (Option (ProtocolItem S) × Outbox S) :=
  match o.item with
  | some r => some (some r, { o with item := none })
  | none =>
    match o.rx with
    | item :: rx => some (item, { o with rx })
    | [] => none

/-- The item's frame in the header buffer; a panic is `none`. -/
def fill [SharedMessage S] (c : Codec S) (cbor : PacketCbor) (o : Outbox S) (r : ProtocolItem S) :
    Option (ProtocolPacket × Outbox S) :=
  match r.serialize c .cbor [] with
  | some (.ok pkt) =>
    (putFrame cbor o.headerBuff pkt).map fun headerBuff => (pkt, { o with headerBuff })
  | _ => none

end Outbox

section Tcp

/-- A connection: the bytes delivered on it, and what was written on it completely. -/
structure TcpConn (S : Type) where
  bytes : List UInt8
  sent : List (ProtocolItem S × ProtocolPacket)

/-- Where the task is: at `incoming.next()`, before the next item, in `write_all`, or past the
loop, with the item that has been lost. -/
inductive TcpPc (S : Type) where
  | connecting
  | ready (conn : TcpConn S)
  | writing (conn : TcpConn S) (r : ProtocolItem S) (pkt : ProtocolPacket)
  | ended (item : Option (ProtocolItem S))
  | panicked (r : ProtocolItem S)

/-- The open connection. -/
def TcpPc.conn? : TcpPc S → Option (TcpConn S)
  | ready conn | writing conn _ _ => some conn
  | connecting | ended _ | panicked _ => none

structure TcpWriter (S : Type) where
  outbox : Outbox S
  pc : TcpPc S
  /-- The connections before the present one. -/
  past : List (TcpConn S)

inductive TcpLabel (S : Type) where
  | put (item : Option (ProtocolItem S))
  | connect
  | noConnection
  | recv
  | written
  /-- The write fails, `n` bytes of the frame delivered. -/
  | broken (n : ℕ)
  /-- Somebody else's bytes, between two frames. -/
  | noise (x : Chunk)

/-- A `PING`, or a packet of content type 0 that does not parse. -/
def Chunk.isNoise (cbor : PacketCbor) (x : Chunk) : Bool :=
  match x with
  | word w => w = ping
  | frame version contentType body =>
    version < 65536 ∧ contentType = 0 ∧ body.length ≤ vecMax ∧ (cbor.fromSlice body).isNone

namespace TcpWriter

variable [SharedMessage S] (c : Codec S) (cbor : PacketCbor)

def start : TcpWriter S := ⟨.new, .connecting, []⟩

/-- All connections so far. -/
def conns (s : TcpWriter S) : List (TcpConn S) := s.past ++ s.pc.conn?.toList

def recv (s : TcpWriter S) : Option (TcpWriter S) :=
  match s.pc with
  | .ready conn => s.outbox.take.map fun
    | (some r, outbox) =>
      match outbox.fill c cbor r with
      | some (pkt, outbox) => { s with outbox, pc := .writing conn r pkt }
      | none => ⟨outbox, .panicked r, s.past ++ [conn]⟩
    | (none, outbox) => ⟨outbox, .connecting, s.past ++ [conn]⟩
  | _ => none

def step (s : TcpWriter S) : TcpLabel S → Option (TcpWriter S)
  | .put item =>
    match s.pc with
    | .ended _ | .panicked _ => none
    | _ => some { s with outbox := s.outbox.push item }
  | .connect =>
    match s.pc with
    | .connecting => some { s with pc := .ready ⟨[], []⟩ }
    | _ => none
  | .noConnection =>
    match s.pc with
    | .connecting => some { s with outbox.item := none, pc := .ended s.outbox.item }
    | _ => none
  | .recv => s.recv c cbor
  | .written =>
    match s.pc with
    | .writing conn r pkt => some { s with
        pc := .ready ⟨conn.bytes ++ s.outbox.headerBuff, conn.sent ++ [(r, pkt)]⟩ }
    | _ => none
  | .broken n =>
    match s.pc with
    | .writing conn r _ =>
      if n < s.outbox.headerBuff.length then some
        ⟨{ s.outbox with item := some r }, .connecting,
          s.past ++ [{ conn with bytes := conn.bytes ++ s.outbox.headerBuff.take n }]⟩
      else none
    | _ => none
  | .noise x =>
    match s.pc with
    | .ready conn =>
      if x.isNoise cbor then
        some { s with pc := .ready { conn with bytes := conn.bytes ++ x.bytes } }
      else none
    | _ => none

end TcpWriter

/-- The writer task of a `TcpRelay`, with those who put items on its queue and its connections. -/
def tcpWriter [SharedMessage S] (c : Codec S) (cbor : PacketCbor) :
    Lts (TcpWriter S) (TcpLabel S) where
  start := .start
  step s l := s.step c cbor l

end Tcp

section Quic

/-- Where the task is: at `incoming.next()`, at the handshake, before the next item, in `open_bi`,
`write_all` or `finish`, or past the loop. -/
inductive QuicPc (S : Type) where
  | connecting
  | handshake
  | ready
  | opening (r : ProtocolItem S)
  | writing (r : ProtocolItem S)
  | finishing (r : ProtocolItem S)
  | ended
  | panicked

structure QuicWriter (S : Type) where
  outbox : Outbox S
  pc : QuicPc S
  /-- The items written and finished so far. -/
  finished : List (ProtocolItem S)

inductive QuicLabel (S : Type) where
  | put (item : Option (ProtocolItem S))
  | connect
  | noConnection
  | handshake (ok : Bool)
  | recv
  | openBi (ok : Bool)
  | write (ok : Bool)
  | finish (ok : Bool)

namespace QuicWriter

variable [SharedMessage S] (c : Codec S) (cbor : PacketCbor)

def start : QuicWriter S := ⟨.new, .connecting, []⟩

/-- A write or a `finish` that fails keeps the item. -/
def retain (s : QuicWriter S) (r : ProtocolItem S) : QuicWriter S :=
  { s with outbox.item := some r, pc := .connecting }

def recv (s : QuicWriter S) : Option (QuicWriter S) :=
  match s.pc with
  | .ready => s.outbox.take.map fun
    | (some r, outbox) => { s with outbox, pc := .opening r }
    | (none, outbox) => { s with outbox, pc := .connecting }
  | _ => none

/-- `open_bi` and, where it gives a stream, the frame. Where it fails the loop breaks with the item
still in hand. -/
def openBi (s : QuicWriter S) (ok : Bool) : Option (QuicWriter S) :=
  match s.pc with
  | .opening r =>
    some (if ok then
      match s.outbox.fill c cbor r with
      | some (_, outbox) => { s with outbox, pc := .writing r }
      | none => { s with pc := .panicked }
    else { s with pc := .connecting })
  | _ => none

def step (s : QuicWriter S) : QuicLabel S → Option (QuicWriter S)
  | .put item =>
    match s.pc with
    | .ended | .panicked => none
    | _ => some { s with outbox := s.outbox.push item }
  | .connect =>
    match s.pc with
    | .connecting => some { s with pc := .handshake }
    | _ => none
  | .noConnection =>
    match s.pc with
    -- The task ends, and the item it has kept is lost.
    | .connecting => some { s with outbox.item := none, pc := .ended }
    | _ => none
  | .handshake ok =>
    match s.pc with
    | .handshake => some { s with pc := if ok then .ready else .connecting }
    | _ => none
  | .recv => s.recv
  | .openBi ok => s.openBi c cbor ok
  | .write ok =>
    match s.pc with
    | .writing r => some (if ok then { s with pc := .finishing r } else s.retain r)
    | _ => none
  | .finish ok =>
    match s.pc with
    | .finishing r => some (if ok then { s with pc := .ready, finished := s.finished ++ [r] }
        else s.retain r)
    | _ => none

end QuicWriter

/-- The writer task of a `QuicRelay`, with those who put items on its queue and its connections. -/
def quicWriter [SharedMessage S] (c : Codec S) (cbor : PacketCbor) :
    Lts (QuicWriter S) (QuicLabel S) where
  start := .start
  step s l := s.step c cbor l

end Quic

end MessageBus
