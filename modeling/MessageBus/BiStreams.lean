import MessageBus.Writers

/-!
# Frames on bi-streams

The inbound stream of one QUIC connection (`QuicRelay::event_stream`) reads one frame from each
bi-stream that comes in, in one buffer for all of them, and goes on to the next whatever is wrong
with a frame short of a panic. `quicWire` is the writer task with the bi-streams of its connections
and the bytes of each that get through.
-/

namespace MessageBus

open Bytes

section Reader

variable (cbor : PacketCbor)

/-- What one bi-stream comes to, with the buffer for the next. -/
inductive StreamTurn where
  | skipped (buff : List UInt8)
  | packet (p : ProtocolPacket) (buff : List UInt8)
  | panicked

end Reader

section Wire

variable {S : Type}

/-- A bi-stream that the task has opened, for the item that it took off the queue as the `nth`. -/
structure BiStream (S : Type) where
  nth : ℕ
  item : ProtocolItem S
  pkt : ProtocolPacket
  frame : List UInt8
  /-- How much of the frame has got through. -/
  arrived : ℕ
  /-- `finish` has come back without an error. -/
  finished : Bool

namespace BiStream

def bytes (b : BiStream S) : List UInt8 := b.frame.take b.arrived

/-- The whole frame has got through. -/
def whole (b : BiStream S) : Bool := b.arrived = b.frame.length

end BiStream

structure QuicWire (S : Type) where
  writer : QuicWriter S
  /-- The items taken off the queue so far. -/
  taken : List (ProtocolItem S)
  /-- The bi-streams of each connection before the present one, and those of the present one. -/
  past : List (List (BiStream S))
  present : List (BiStream S)
  /-- The bi-stream that is open. -/
  current : Option (BiStream S)
  /-- Which items went with an `open_bi` that failed, or with the task where it panicked or found no
  more connections. -/
  dropped : List ℕ

inductive QuicWireLabel (S : Type) where
  /-- A step of the writer task. -/
  | write (l : QuicLabel S)
  /-- `n` more bytes of the open bi-stream get through. -/
  | arrive (n : ℕ)

namespace QuicWire

variable [SharedMessage S] (c : Codec S) (cbor : PacketCbor)

def start : QuicWire S := ⟨.start, [], [], [], none, []⟩

/-- The bi-streams of all connections so far. -/
def conns (s : QuicWire S) : List (List (BiStream S)) :=
  s.past ++ [s.present ++ s.current.toList]

def openBi (s : QuicWire S) (ok : Bool) : QuicWire S :=
  match s.writer.pc with
  | .opening r =>
    match s.writer.outbox.fill c cbor r, ok with
    | some (pkt, outbox), true =>
      { s with current := some ⟨s.taken.length - 1, r, pkt, outbox.headerBuff, 0, false⟩ }
    | _, _ => { s with dropped := s.dropped ++ [s.taken.length - 1] }
  | _ => s

/-- The open bi-stream is done with. -/
def shut (s : QuicWire S) (finished : Bool) : QuicWire S :=
  { s with
    present := s.present ++ (s.current.map fun b => { b with finished }).toList, current := none }

/-- What the writer's step makes of the bi-streams. Bytes that a failing `write_all` has not handed
over have not got through, and `finish` comes back once the peer has acknowledged all of them. -/
def track (s : QuicWire S) : QuicLabel S → Option (QuicWire S)
  | .handshake true => some { s with past := s.past ++ [s.present], present := [] }
  | .recv =>
    match s.writer.outbox.item, s.writer.outbox.rx with
    | none, some r :: _ => some { s with taken := s.taken ++ [r] }
    | _, _ => some s
  | .noConnection =>
    some { s with
      dropped := s.dropped ++ (s.writer.outbox.item.map fun _ => s.taken.length - 1).toList }
  | .openBi ok => some (s.openBi c cbor ok)
  | .write false => if s.current.any BiStream.whole then none else some (s.shut false)
  | .finish ok => if ok && !s.current.all BiStream.whole then none else some (s.shut ok)
  | _ => some s

def step (s : QuicWire S) : QuicWireLabel S → Option (QuicWire S)
  | .write l =>
    (s.writer.step c cbor l).bind fun writer =>
      (s.track c cbor l).map fun s => { s with writer }
  | .arrive n =>
    match s.current with
    | some b =>
      if b.arrived + n ≤ b.frame.length then
        some { s with current := some { b with arrived := b.arrived + n } }
      else none
    | none => none

end QuicWire

end Wire

end MessageBus
