import MessageBus.Framing

/-!
# The reader, chunk by chunk

A reader at the start of a chunk reads that chunk and is at the start of the rest
(`readPacket_word`, `readPacket_frame`), whatever its buffer held. What is left of a torn frame
gives no packet. So a stream made of words, frames and at most a torn frame at its end gives the
packets of its frames in order (`readPackets_chunks`).
-/

namespace MessageBus

open Bytes

theorem header_eq (version contentType bodySize : ℕ) : header version contentType bodySize
    = mbus ++ (putBE 2 version ++ putBE 2 contentType ++ putBE 8 bodySize) := by
  simp [header]

theorem length_mbus : mbus.length = 4 := rfl

@[simp] theorem length_header (version contentType bodySize : ℕ) :
    (header version contentType bodySize).length = 16 := by
  simp [header, mbus]

theorem contentType_field (version contentType bodySize : ℕ) :
    ((putBE 2 version ++ putBE 2 contentType ++ putBE 8 bodySize).drop 2).take 2
      = putBE 2 contentType := rfl

theorem bodySize_field (version contentType bodySize : ℕ) :
    ((putBE 2 version ++ putBE 2 contentType ++ putBE 8 bodySize).drop 4).take 8
      = putBE 8 bodySize := rfl

/-- A chunk whose frame the reader does not panic on. -/
def Chunk.Plain (x : Chunk) : Prop :=
  x.valid = true ∧ ∀ version contentType body, x = .frame version contentType body → contentType = 0

namespace TcpReader

variable (cbor : PacketCbor) {r : TcpReader} {rest : List UInt8}

theorem readPacket_word {w : List UInt8} (hw : w.length = 4) (hne : w ≠ mbus)
    (h : r.recv = w ++ rest) : r.readPacket cbor = .skipped ⟨rest, w⟩ := by
  unfold readPacket
  rw [h, readExact_append hw]
  simp only []
  split_ifs <;> rfl

/-- A reader at a header goes on to the body. -/
theorem readPacket_header {version contentType bodySize : ℕ} (hct : contentType < 65536)
    (hsize : bodySize < 18446744073709551616)
    (h : r.recv = header version contentType bodySize ++ rest) :
    ∃ buff, r.readPacket cbor = readBody cbor ⟨rest, buff⟩ contentType bodySize := by
  refine ⟨putBE 2 version ++ putBE 2 contentType ++ putBE 8 bodySize, ?_⟩
  unfold readPacket
  rw [h, header_eq, List.append_assoc, readExact_append length_mbus]
  simp only [show mbus ≠ ping by decide, if_false, ne_eq, not_true_eq_false]
  rw [readExact_append (by simp)]
  simp only [contentType_field, bodySize_field]
  rw [getBE_putBE_of_lt hct, getBE_putBE_of_lt hsize]

theorem readBody_whole {body buff : List UInt8} (hbody : body.length ≤ vecMax)
    (contentType : ℕ) : readBody cbor ⟨body ++ rest, buff⟩ contentType body.length
      = if contentType = 0 then
          match cbor.fromSlice body with
          | some p => .packet p ⟨rest, body⟩
          | none => .skipped ⟨rest, body⟩
        else .panicked := by
  have hread : readExact (resize buff body.length 0) (body ++ rest) = some (body, rest) :=
    readExact_append rfl rest
  unfold readBody
  by_cases hct : contentType = 0
  · cases hparse : cbor.fromSlice body <;> simp [hread, hct, hparse, Nat.not_lt.2 hbody]
  · simp [hread, hct, Nat.not_lt.2 hbody]

theorem readPacket_frame {version contentType : ℕ} {body : List UInt8} (hct : contentType < 65536)
    (hbody : body.length ≤ vecMax)
    (h : r.recv = (Chunk.frame version contentType body).bytes ++ rest) :
    r.readPacket cbor = if contentType = 0 then
        match cbor.fromSlice body with
        | some p => .packet p ⟨rest, body⟩
        | none => .skipped ⟨rest, body⟩
      else .panicked := by
  have hsize : body.length < 18446744073709551616 := by
    unfold vecMax at hbody
    omega
  rw [Chunk.bytes, List.append_assoc] at h
  obtain ⟨buff, hturn⟩ := readPacket_header cbor hct hsize h
  rw [hturn, readBody_whole cbor hbody]

theorem readPacket_short (h : r.recv.length < 4) : r.readPacket cbor = .ended := by
  unfold readPacket
  rw [readExact_short h]

/-- A frame that breaks off uses the stream up. -/
theorem readPacket_torn {version contentType : ℕ} {body : List UInt8} {n : ℕ}
    (hct : contentType < 65536) (hbody : body.length ≤ vecMax) (h4 : 4 ≤ n)
    (hn : n < (Chunk.frame version contentType body).bytes.length)
    (h : r.recv = (Chunk.frame version contentType body).bytes.take n) :
    ∃ buff, r.readPacket cbor = .skipped ⟨[], buff⟩ := by
  simp only [Chunk.bytes, List.length_append, length_header] at hn
  by_cases h16 : n < 16
  · -- within the header
    refine ⟨mbus, ?_⟩
    have hcut : r.recv = mbus ++ ((putBE 2 version ++ putBE 2 contentType
        ++ putBE 8 body.length) ++ body).take (n - 4) := by
      rw [h, Chunk.bytes, header_eq, List.append_assoc, List.take_append,
        List.take_of_length_le (by simpa [mbus] using h4)]
      rfl
    unfold readPacket
    rw [hcut, readExact_append length_mbus]
    simp only [show mbus ≠ ping by decide, if_false, ne_eq, not_true_eq_false]
    rw [readExact_short]
    simp only [List.length_take, List.length_append, length_putBE]
    omega
  · have hcut : r.recv = header version contentType body.length ++ body.take (n - 16) := by
      rw [h, Chunk.bytes, List.take_append, length_header,
        List.take_of_length_le (by rw [length_header]; omega)]
    have hsize : body.length < 18446744073709551616 := by
      unfold vecMax at hbody
      omega
    obtain ⟨buff, hturn⟩ := readPacket_header cbor hct hsize hcut
    refine ⟨buff, ?_⟩
    rw [hturn, readBody, if_neg (by omega), readExact_short]
    rw [List.length_take]
    omega

variable {cbor}

theorem readPackets_ended (h : r.readPacket cbor = .ended) : r.readPackets cbor = some [] := by
  rw [readPackets]
  split <;> simp_all

theorem readPackets_skipped {r' : TcpReader} (h : r.readPacket cbor = .skipped r') :
    r.readPackets cbor = r'.readPackets cbor := by
  rw [readPackets]
  split <;> simp_all

theorem readPackets_packet {p : ProtocolPacket} {r' : TcpReader}
    (h : r.readPacket cbor = .packet p r') :
    r.readPackets cbor = (r'.readPackets cbor).map (p :: ·) := by
  rw [readPackets]
  split <;> simp_all

theorem readPackets_torn {version contentType : ℕ} {body buff : List UInt8} {n : ℕ}
    (hct : contentType < 65536) (hbody : body.length ≤ vecMax)
    (hn : n < (Chunk.frame version contentType body).bytes.length) :
    readPackets cbor ⟨(Chunk.frame version contentType body).bytes.take n, buff⟩ = some [] := by
  by_cases h4 : 4 ≤ n
  · have hend : ∀ buff, readPackets cbor ⟨[], buff⟩ = some [] :=
      fun buff => readPackets_ended (readPacket_short cbor (by simp))
    obtain ⟨buff', hturn⟩ := readPacket_torn cbor (r := ⟨_, buff⟩) hct hbody h4 hn rfl
    rw [readPackets_skipped hturn, hend]
  · refine readPackets_ended (readPacket_short cbor ?_)
    rw [List.length_take]
    omega

/-- The packets of a stream are those of its frames, in order, then those of its rest. -/
theorem readPackets_chunks {ps : List ProtocolPacket}
    (hrest : ∀ buff, readPackets cbor ⟨rest, buff⟩ = some ps) :
    ∀ (xs : List Chunk) (buff : List UInt8), (∀ x ∈ xs, x.Plain) →
      readPackets cbor ⟨xs.flatMap Chunk.bytes ++ rest, buff⟩
        = some (xs.filterMap (Chunk.packet? cbor) ++ ps)
  | [], buff, _ => hrest buff
  | x :: xs, buff, h => by
    rw [List.forall_mem_cons] at h
    obtain ⟨⟨hv, hzero⟩, hxs⟩ := h
    have ih := fun buff => readPackets_chunks hrest xs buff hxs
    rw [List.flatMap_cons, List.append_assoc]
    cases x with
    | word w =>
      simp only [Chunk.valid, Bool.decide_and, Bool.and_eq_true, decide_eq_true_eq] at hv
      rw [readPackets_skipped (readPacket_word cbor hv.1 hv.2 rfl), ih]
      rfl
    | frame version contentType body =>
      simp only [Chunk.valid, Bool.decide_and, Bool.and_eq_true, decide_eq_true_eq] at hv
      have hturn : readPacket cbor ⟨(Chunk.frame version contentType body).bytes
          ++ (xs.flatMap Chunk.bytes ++ rest), buff⟩ = _ := readPacket_frame cbor hv.2.1 hv.2.2 rfl
      rw [if_pos (hzero _ _ _ rfl)] at hturn
      rcases hp : cbor.fromSlice body with _ | p <;> simp only [hp] at hturn
      · rw [readPackets_skipped hturn, ih]
        simp [Chunk.packet?, hp]
      · rw [readPackets_packet hturn, ih]
        simp [Chunk.packet?, hp]

end TcpReader

def flushPacket : ProtocolPacket := ⟨⟨.flush, none, .empty, .cbor, 0⟩, none⟩

/-- `{"header": {"kind": "Flush", "type_tag": null, "flags": {"bits": 0}, "body_type": "Cbor",
"argument": 0}, "body": null}` -/
def flushBytes : List UInt8 :=
  [0xA2, 0x66, 104, 101, 97, 100, 101, 114,
    0xA5, 0x64, 107, 105, 110, 100, 0x65, 70, 108, 117, 115, 104,
    0x68, 116, 121, 112, 101, 95, 116, 97, 103, 0xF6,
    0x65, 102, 108, 97, 103, 115, 0xA1, 0x64, 98, 105, 116, 115, 0x00,
    0x69, 98, 111, 100, 121, 95, 116, 121, 112, 101, 0x64, 67, 98, 111, 114,
    0x68, 97, 114, 103, 117, 109, 101, 110, 116, 0x00,
    0x64, 98, 111, 100, 121, 0xF6]

/-- Serde on `Flush` packets. -/
def flushCbor : PacketCbor where
  toWriter p := if p = flushPacket then flushBytes else []
  fromSlice bs := if bs = flushBytes then some flushPacket else none

end MessageBus
