import MessageBus.Lib.Bytes
import MessageBus.Proto

/-!
# Frames on a byte stream

A frame is a 16-byte header and a packet. `putFrame` is how the writer tasks of `TcpRelay` and
`QuicRelay` fill the header buffer they reuse; `TcpReader` is the inbound stream of one TCP
connection (`TcpRelay::event_stream`), from the bytes to what it yields, answers and spawns, polled
until it ends. Serde's CBOR backend on packets is a parameter.
-/

namespace MessageBus

open Bytes

/-- `serde_cbor` on packets. -/
structure PacketCbor where
  toWriter : ProtocolPacket → List UInt8
  fromSlice : List UInt8 → Option ProtocolPacket

/-- The most bytes a `Vec` holds: above `isize::MAX` it panics. -/
def vecMax : ℕ := 9223372036854775807

/-- `b"MBUS"` -/
def mbus : List UInt8 := [77, 66, 85, 83]

/-- `b"PING"` -/
def ping : List UInt8 := [80, 73, 78, 71]

def header (version contentType bodySize : ℕ) : List UInt8 :=
  mbus ++ putBE 2 version ++ putBE 2 contentType ++ putBE 8 bodySize

/-- The header buffer with the packet's frame: the packet goes behind 16 bytes, which are then
overwritten. -/
def putFrame (cbor : PacketCbor) (headerBuff : List UInt8) (pkt : ProtocolPacket) :
    Option (List UInt8) :=
  let buff := resize headerBuff 16 0 ++ cbor.toWriter pkt
  if buff.length ≤ vecMax then some (header 1 0 (buff.length - 16) ++ buff.drop 16) else none

/-- What a reader passes over in one go: a word that does not start a frame, or a frame. -/
inductive Chunk where
  | word (w : List UInt8)
  | frame (version contentType : ℕ) (body : List UInt8)
  deriving DecidableEq, Repr

namespace Chunk

def bytes : Chunk → List UInt8
  | word w => w
  | frame version contentType body => header version contentType body.length ++ body

/-- The numbers fit their fields, and the body a `Vec`. -/
def valid : Chunk → Bool
  | word w => w.length = 4 ∧ w ≠ mbus
  | frame version contentType body =>
    version < 65536 ∧ contentType < 65536 ∧ body.length ≤ vecMax

/-- The packet in a frame. -/
def packet? (cbor : PacketCbor) : Chunk → Option ProtocolPacket
  | frame _ _ body => cbor.fromSlice body
  | word _ => none

end Chunk

/-- The stream of a connection: the bytes still to come, and the buffer. At the end of the stream a
read fails, and the bytes that were left are gone. -/
structure TcpReader where
  recv : List UInt8
  buff : List UInt8

/-- What one turn of the reader's loop comes to. -/
inductive ReadTurn where
  | ended
  | skipped (r : TcpReader)
  | packet (p : ProtocolPacket) (r : TcpReader)
  | panicked

/-- Where the loop goes on. -/
def ReadTurn.next? : ReadTurn → Option TcpReader
  | skipped r | packet _ r => some r
  | ended | panicked => none

namespace TcpReader

variable (cbor : PacketCbor)

/-- From the body on. -/
def readBody (r : TcpReader) (contentType bodySize : ℕ) : ReadTurn :=
  if vecMax < bodySize then .panicked
  else
    match readExact (resize r.buff bodySize 0) r.recv with
    | none => .skipped ⟨[], r.buff⟩
    | some (buff, recv) =>
      if contentType = 0 then
        match cbor.fromSlice buff with
        | some p => .packet p ⟨recv, buff⟩
        | none => .skipped ⟨recv, buff⟩
      else .panicked

/-- One turn of the loop, up to the packet. -/
def readPacket (r : TcpReader) : ReadTurn :=
  match readExact (resize r.buff 4 0) r.recv with
  | none => .ended
  | some (buff, recv) =>
    if buff = ping then .skipped ⟨recv, buff⟩
    else if buff ≠ mbus then .skipped ⟨recv, buff⟩
    else
      match readExact (resize buff 12 0) recv with
      | none => .skipped ⟨[], buff⟩
      | some (buff, recv) =>
        readBody cbor ⟨recv, buff⟩ (getBE ((buff.drop 2).take 2)) (getBE ((buff.drop 4).take 8))

variable {cbor}

theorem recv_readBody {r r' : TcpReader} {contentType bodySize : ℕ}
    (h : (r.readBody cbor contentType bodySize).next? = some r') :
    r'.recv.length ≤ r.recv.length := by
  unfold readBody at h
  rcases hb : readExact (resize r.buff bodySize 0) r.recv with _ | ⟨body, recv⟩ <;>
    simp only [hb] at h
  · split_ifs at h
    · simp [ReadTurn.next?] at h
    · cases h
      exact Nat.zero_le _
  have hle : recv.length ≤ r.recv.length := by
    rw [(of_readExact hb).2, List.length_append]
    omega
  split_ifs at h
  · simp [ReadTurn.next?] at h
  · split at h <;> cases h <;> exact hle
  · simp [ReadTurn.next?] at h

/-- A turn that goes on has read a word. -/
theorem recv_readPacket {r r' : TcpReader} (h : (r.readPacket cbor).next? = some r') :
    r'.recv.length < r.recv.length := by
  unfold readPacket at h
  rcases hw : readExact (resize r.buff 4 0) r.recv with _ | ⟨w, recv⟩ <;> simp only [hw] at h
  · simp [ReadTurn.next?] at h
  have hlt : recv.length < r.recv.length := by
    obtain ⟨hlen, hrecv⟩ := of_readExact hw
    rw [hrecv, List.length_append]
    omega
  split_ifs at h
  · cases h
    exact hlt
  · cases h
    exact hlt
  rcases hh : readExact (resize w 12 0) recv with _ | ⟨hd, recv'⟩ <;> simp only [hh] at h
  · cases h
    exact Nat.lt_of_le_of_lt (Nat.zero_le _) hlt
  have hle := recv_readBody h
  have hsplit := congrArg List.length (of_readExact hh).2
  simp only [List.length_append] at hle hsplit
  omega

variable (cbor)

/-- The packets of a connection, in order, or nothing where the reader panics. -/
def readPackets (r : TcpReader) : Option (List ProtocolPacket) :=
  match _h : r.readPacket cbor with
  | .ended => some []
  | .skipped r' => r'.readPackets
  | .packet p r' => (r'.readPackets).map (p :: ·)
  | .panicked => none
termination_by r.recv.length
decreasing_by all_goals exact recv_readPacket (by rw [_h]; rfl)

end TcpReader

/-- What the stream does with a packet: an event goes to the relay's event loop, an answer to the
item channel, a `Send` to a task. -/
inductive Inflow (S : Type) where
  | yield (ev : Event S GenericError)
  | answer (item : ProtocolItem S)
  | spawn (mid : UInt64) (msg : S) (req : Bool)

/-- Around the stream, turn by turn: whether `flush_all` and `sync_all` come back, and whether the
item channel has its receiving half. -/
structure Surroundings where
  returns : ℕ → Bool
  rx : ℕ → Bool

inductive InflowEnd where
  | ended
  | panicked
  /-- In a call of the bus that does not come back. -/
  | waiting
  deriving DecidableEq, Repr

/-- What becomes of a packet: done with, or the end of the stream. -/
abbrev InflowStep (S : Type) := Except InflowEnd (Option (Inflow S))

section InflowStep

variable {S : Type} (env : Surroundings) (k : ℕ)

/-- `sender.send(..).unwrap()` -/
def answerWith (item : ProtocolItem S) : InflowStep S :=
  if env.rx k then .ok (some (.answer item)) else .error .panicked

/-- An answer after a call of the bus. -/
def answerAfter (item : ProtocolItem S) : InflowStep S :=
  if env.returns k then answerWith env k item else .error .waiting

def actOn : ProtocolItem S → InflowStep S
  | .event ev => .ok (some (.yield ev))
  | .action .close => answerWith env k (.event .exited)
  | .action .flush => answerAfter env k (.event .flushed)
  | .action .sync => answerAfter env k (.event (.synchronized (.ok ())))
  | .action (.init _) => .ok none
  | .action .stats => .ok none
  | .send mid msg req => .ok (some (.spawn mid msg req))
  | .nop => .error .panicked

/-- The `k`-th turn from the packet on; `deserialize` may panic itself. -/
def onPacket (c : Codec S) (p : ProtocolPacket) : InflowStep S :=
  match p.deserialize c with
  | none => .error .panicked
  | some (.error _) => .ok none
  | some (.ok item) => actOn env k item

end InflowStep

/-- The stream of a connection polled to its end. -/
def TcpReader.inflow {S : Type} (cbor : PacketCbor) (c : Codec S) (env : Surroundings) (k : ℕ)
    (r : TcpReader) : List (Inflow S) × InflowEnd :=
  match _h : r.readPacket cbor with
  | .ended => ([], .ended)
  | .skipped r' => r'.inflow cbor c env (k + 1)
  | .packet p r' =>
    match onPacket env k c p with
    | .error e => ([], e)
    | .ok act =>
      let (acts, e) := r'.inflow cbor c env (k + 1)
      (act.toList ++ acts, e)
  | .panicked => ([], .panicked)
termination_by r.recv.length
decreasing_by all_goals exact TcpReader.recv_readPacket (by rw [_h]; rfl)

end MessageBus
