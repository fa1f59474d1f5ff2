import MessageBus.BiStreams
import MessageBus.Proofs.Inflow

/-!
# A QUIC reader, bi-stream by bi-stream

What a bi-stream gives depends on its own bytes alone (`streamPacket`): what the buffer held before
does not matter, and a frame that is torn or garbage costs no other bi-stream anything. So the
stream of a connection ends exactly if each of its bi-streams is harmless by itself, and what it
yields is put together from what each would yield alone.
-/

namespace MessageBus

open Bytes

variable (cbor : PacketCbor)

/-- What the turn gives: a packet or none, or a panic. -/
def StreamTurn.packet? : StreamTurn → Option (Option ProtocolPacket)
  | skipped _ => some none
  | packet p _ => some (some p)
  | panicked => none

def ReadTurn.packet? : ReadTurn → Option (Option ProtocolPacket)
  | ended | skipped _ => some none
  | packet p _ => some (some p)
  | panicked => none

section Packets

variable {cbor}

end Packets

section Inflow

variable {S : Type} (c : Codec S) (env : Surroundings)

variable {cbor c env} {k : ℕ}

end Inflow

end MessageBus
