import MessageBus.Proofs.Framing
import MessageBus.Proofs.RoundTrip
import MessageBus.Writers
import Mathlib.Data.List.ReduceOption

/-!
# What the writer tasks deliver

What a writer has written, what it holds and what is queued make up what was put on its queue. The
TCP writer keeps its item whatever fails, so what it has written is a prefix of the queue, and the
bytes of each connection spell the packets written on it (`Spelled`), with what is left of a torn
frame at most. The QUIC writer drops the item it holds where `open_bi` fails, and what it keeps for
the next connection where there is none.
-/

namespace MessageBus

open Bytes

variable {S : Type}

section Outbox

variable {o o' : Outbox S}

theorem put_reduce (o : Outbox S) (item : Option (ProtocolItem S)) :
    (o.push item).put.reduceOption = o.put.reduceOption ++ item.toList := by
  cases item <;> simp [Outbox.push, List.reduceOption_append]

theorem rx_reduce (o : Outbox S) (item : Option (ProtocolItem S)) :
    (o.push item).rx.reduceOption = o.rx.reduceOption ++ item.toList := by
  cases item <;> simp [Outbox.push, List.reduceOption_append]

/-- What an outbox still has to give: the item kept, then the queue. -/
def Outbox.pending (o : Outbox S) : List (ProtocolItem S) := o.item.toList ++ o.rx.reduceOption

theorem pending_push (o : Outbox S) (item : Option (ProtocolItem S)) :
    (o.push item).pending = o.pending ++ item.toList := by
  rw [Outbox.pending, rx_reduce, ← List.append_assoc]
  rfl

/-- What is taken is the first of what is pending, and none is kept. -/
theorem of_take {item : Option (ProtocolItem S)} (h : o.take = some (item, o')) :
    o.pending = item.toList ++ o'.pending ∧ o'.item = none ∧ o'.put = o.put := by
  unfold Outbox.take at h
  rcases hi : o.item with _ | r <;> simp only [hi] at h
  · rcases hq : o.rx with _ | ⟨x, rx⟩ <;> simp only [hq] at h
    · cases h
    · cases h
      cases item <;> simp [Outbox.pending, hi, hq]
  · cases h
    simp [Outbox.pending, hi]

theorem of_putFrame {cbor : PacketCbor} {headerBuff buff : List UInt8} {pkt : ProtocolPacket}
    (h : putFrame cbor headerBuff pkt = some buff) :
    buff = (Chunk.frame 1 0 (cbor.toWriter pkt)).bytes ∧ (cbor.toWriter pkt).length ≤ vecMax := by
  unfold putFrame at h
  simp only [List.length_append, length_resize, Nat.add_sub_cancel_left] at h
  split_ifs at h with hle
  cases h
  refine ⟨?_, by omega⟩
  rw [List.drop_append_of_le_length (by simp), List.drop_of_length_le (by simp), Chunk.bytes]
  rfl

variable [SharedMessage S] {c : Codec S} {cbor : PacketCbor}

/-- A filled header buffer holds the frame of the item's packet. -/
theorem of_fill {r : ProtocolItem S} {pkt : ProtocolPacket} (h : o.fill c cbor r = some (pkt, o')) :
    r.serialize c .cbor [] = some (.ok pkt)
      ∧ o'.headerBuff = (Chunk.frame 1 0 (cbor.toWriter pkt)).bytes
      ∧ (cbor.toWriter pkt).length ≤ vecMax
      ∧ o'.item = o.item ∧ o'.pending = o.pending ∧ o'.put = o.put := by
  unfold Outbox.fill at h
  split at h
  · rename_i pkt' hpkt
    obtain ⟨buff, hbuff, heq⟩ := Option.map_eq_some_iff.1 h
    cases heq
    obtain ⟨hframe, hlen⟩ := of_putFrame hbuff
    exact ⟨hpkt, hframe, hlen, rfl, rfl, rfl⟩
  · cases h

end Outbox

section Tcp

/-- The bytes of noise and of these packets' frames, in order. -/
inductive Spelled (cbor : PacketCbor) : List UInt8 → List ProtocolPacket → Prop where
  | nil : Spelled cbor [] []
  | noise {bs : List UInt8} {ps : List ProtocolPacket} {x : Chunk} : Spelled cbor bs ps →
      x.isNoise cbor = true → Spelled cbor (bs ++ x.bytes) ps
  | frame {bs : List UInt8} {ps : List ProtocolPacket} {pkt : ProtocolPacket} :
      Spelled cbor bs ps → (cbor.toWriter pkt).length ≤ vecMax →
      Spelled cbor (bs ++ (Chunk.frame 1 0 (cbor.toWriter pkt)).bytes) (ps ++ [pkt])

variable {cbor : PacketCbor}

theorem plain_of_noise {x : Chunk} (h : x.isNoise cbor = true) :
    x.Plain ∧ x.packet? cbor = none := by
  cases x with
  | word w =>
    simp only [Chunk.isNoise, decide_eq_true_eq] at h
    subst h
    exact ⟨⟨rfl, by simp⟩, rfl⟩
  | frame version contentType body =>
    simp only [Chunk.isNoise, decide_eq_true_eq, Option.isNone_iff_eq_none] at h
    obtain ⟨hv, rfl, hlen, hnone⟩ := h
    refine ⟨⟨by simp [Chunk.valid, hv, hlen], ?_⟩, hnone⟩
    rintro _ _ _ ⟨⟩
    rfl

theorem Spelled.chunks {bs : List UInt8} {ps : List ProtocolPacket} (h : Spelled cbor bs ps)
    (hcbor : ∀ pkt ∈ ps, cbor.fromSlice (cbor.toWriter pkt) = some pkt) :
    ∃ xs : List Chunk, (∀ x ∈ xs, x.Plain) ∧ bs = xs.flatMap Chunk.bytes
      ∧ xs.filterMap (Chunk.packet? cbor) = ps := by
  induction h with
  | nil => exact ⟨[], by simp, rfl, rfl⟩
  | noise _ hx ih =>
    obtain ⟨xs, hxs, rfl, hps⟩ := ih hcbor
    obtain ⟨hplain, hnone⟩ := plain_of_noise hx
    refine ⟨xs ++ [_], ?_, by rw [List.flatMap_append, List.flatMap_singleton], ?_⟩
    · rw [List.forall_mem_append, List.forall_mem_singleton]
      exact ⟨hxs, hplain⟩
    · simp [List.filterMap_append, hnone, hps]
  | frame _ hlen ih =>
    simp only [List.forall_mem_append, List.forall_mem_singleton] at hcbor
    obtain ⟨xs, hxs, rfl, hps⟩ := ih hcbor.1
    refine ⟨xs ++ [_], ?_, by rw [List.flatMap_append, List.flatMap_singleton], ?_⟩
    · rw [List.forall_mem_append, List.forall_mem_singleton]
      refine ⟨hxs, by simp [Chunk.valid, hlen], ?_⟩
      rintro _ _ _ ⟨⟩
      rfl
    · simp [List.filterMap_append, Chunk.packet?, hcbor.2, hps]

/-- What is spelled is read, with a rest that gives nothing behind it. -/
theorem Spelled.read {bs rest : List UInt8} {ps : List ProtocolPacket} (h : Spelled cbor bs ps)
    (hcbor : ∀ pkt ∈ ps, cbor.fromSlice (cbor.toWriter pkt) = some pkt)
    (hrest : ∀ buff, TcpReader.readPackets cbor ⟨rest, buff⟩ = some []) :
    TcpReader.readPackets cbor ⟨bs ++ rest, []⟩ = some ps := by
  obtain ⟨xs, hxs, rfl, hps⟩ := h.chunks hcbor
  rw [TcpReader.readPackets_chunks hrest xs [] hxs, hps, List.append_nil]

theorem readPackets_nil (buff : List UInt8) :
    TcpReader.readPackets cbor ⟨[], buff⟩ = some [] :=
  TcpReader.readPackets_ended (TcpReader.readPacket_short cbor (by simp))

variable [SharedMessage S] {c : Codec S} {s s' : TcpWriter S}

/-- What the task holds besides what is pending, or held when it ended or panicked. -/
def TcpPc.inHand : TcpPc S → List (ProtocolItem S)
  | writing _ r _ | panicked r => [r]
  | ended item => item.toList
  | connecting | ready _ => []

/-- The packets written on a connection are those of its items, and its bytes spell them with
nothing to read behind. -/
structure TcpConn.Spelled (c : Codec S) (cbor : PacketCbor) (conn : TcpConn S) : Prop where
  packed : ∀ x ∈ conn.sent, x.1.serialize c .cbor [] = some (.ok x.2)
  bytes : ∃ bs rest, conn.bytes = bs ++ rest ∧ MessageBus.Spelled cbor bs (conn.sent.map Prod.snd)
    ∧ ∀ buff, TcpReader.readPackets cbor ⟨rest, buff⟩ = some []

/-- The same of the open connection, whose bytes end where a frame may begin. -/
structure TcpConn.Open (c : Codec S) (cbor : PacketCbor) (conn : TcpConn S) : Prop where
  packed : ∀ x ∈ conn.sent, x.1.serialize c .cbor [] = some (.ok x.2)
  bytes : MessageBus.Spelled cbor conn.bytes (conn.sent.map Prod.snd)

theorem TcpConn.Open.closed {conn : TcpConn S} (h : conn.Open c cbor) : conn.Spelled c cbor :=
  ⟨h.packed, conn.bytes, [], by simp, h.bytes, readPackets_nil⟩

namespace TcpWriter

structure Lossless (c : Codec S) (cbor : PacketCbor) (s : TcpWriter S) : Prop where
  order : (s.conns.flatMap fun conn => conn.sent.map Prod.fst) ++ s.pc.inHand ++ s.outbox.pending
    = s.outbox.put.reduceOption
  past : ∀ conn ∈ s.past, conn.Spelled c cbor
  present : ∀ conn, s.pc.conn? = some conn → conn.Open c cbor
  writing : ∀ conn r pkt, s.pc = .writing conn r pkt → s.outbox.item = none
    ∧ r.serialize c .cbor [] = some (.ok pkt)
    ∧ s.outbox.headerBuff = (Chunk.frame 1 0 (cbor.toWriter pkt)).bytes
    ∧ (cbor.toWriter pkt).length ≤ vecMax

theorem lossless_start : Lossless c cbor start :=
  ⟨rfl, by simp [start], by simp [start, TcpPc.conn?], by simp [start]⟩

omit [SharedMessage S] in
theorem conns_ready {conn : TcpConn S} (h : s.pc = .ready conn) : s.conns = s.past ++ [conn] := by
  simp [conns, h, TcpPc.conn?]

/-- The next item is in the header buffer, or the connection is done with. -/
theorem lossless_recv (h : Lossless c cbor s) (hs : s.recv c cbor = some s') :
    Lossless c cbor s' := by
  unfold recv at hs
  split at hs
  · rename_i conn hpc
    obtain ⟨⟨item, outbox⟩, htake, rfl⟩ := Option.map_eq_some_iff.1 hs
    obtain ⟨hpending, hitem, hput⟩ := of_take htake
    have horder := h.order
    rw [conns_ready hpc, hpc, hpending, ← hput] at horder
    have hopen := h.present conn (by rw [hpc]; rfl)
    have hpast : ∀ conn' ∈ s.past ++ [conn], conn'.Spelled c cbor := by
      rw [List.forall_mem_append, List.forall_mem_singleton]
      exact ⟨h.past, hopen.closed⟩
    cases item with
    | none => exact ⟨by simpa [conns, TcpPc.conn?, TcpPc.inHand] using horder, hpast,
        by simp [TcpPc.conn?], by simp⟩
    | some r =>
      simp only []
      split
      · rename_i pkt outbox' hfill
        obtain ⟨hpkt, hbuff, hlen, hitem', hpending', hput'⟩ := of_fill hfill
        refine ⟨?_, h.past, ?_, ?_⟩
        · simpa [conns, TcpPc.conn?, TcpPc.inHand, hpending', hput'] using horder
        · rintro _ ⟨⟩
          exact hopen
        · rintro _ _ _ ⟨⟩
          exact ⟨hitem'.trans hitem, hpkt, hbuff, hlen⟩
      · exact ⟨by simpa [conns, TcpPc.conn?, TcpPc.inHand] using horder, hpast,
          by simp [TcpPc.conn?], by simp⟩
  · cases hs

theorem lossless_written {conn : TcpConn S} {r : ProtocolItem S} {pkt : ProtocolPacket}
    (h : Lossless c cbor s) (hpc : s.pc = .writing conn r pkt) :
    Lossless c cbor { s with
      pc := .ready ⟨conn.bytes ++ s.outbox.headerBuff, conn.sent ++ [(r, pkt)]⟩ } := by
  obtain ⟨-, hpkt, hbuff, hlen⟩ := h.writing _ _ _ hpc
  have horder := h.order
  obtain ⟨hpacked, hbytes⟩ := h.present conn (by rw [hpc]; rfl)
  refine ⟨?_, h.past, ?_, by simp⟩
  · simpa [conns, hpc, TcpPc.conn?, TcpPc.inHand] using horder
  · rintro _ ⟨⟩
    refine ⟨?_, ?_⟩
    · rw [List.forall_mem_append, List.forall_mem_singleton]
      exact ⟨hpacked, hpkt⟩
    · rw [hbuff, List.map_append]
      exact hbytes.frame hlen

/-- A failed write leaves a torn frame, and the item for the next connection. -/
theorem lossless_broken {conn : TcpConn S} {r : ProtocolItem S} {pkt : ProtocolPacket} {n : ℕ}
    (h : Lossless c cbor s) (hpc : s.pc = .writing conn r pkt)
    (hn : n < s.outbox.headerBuff.length) :
    Lossless c cbor ⟨{ s.outbox with item := some r }, .connecting,
      s.past ++ [{ conn with bytes := conn.bytes ++ s.outbox.headerBuff.take n }]⟩ := by
  obtain ⟨hitem, hpkt, hbuff, hlen⟩ := h.writing _ _ _ hpc
  have horder := h.order
  obtain ⟨hpacked, hbytes⟩ := h.present conn (by rw [hpc]; rfl)
  refine ⟨?_, ?_, by simp [TcpPc.conn?], by simp⟩
  · simpa [conns, hpc, TcpPc.conn?, TcpPc.inHand, Outbox.pending, hitem] using horder
  · rw [List.forall_mem_append, List.forall_mem_singleton]
    refine ⟨h.past, hpacked, conn.bytes, _, rfl, hbytes, fun buff => ?_⟩
    rw [hbuff] at hn ⊢
    exact TcpReader.readPackets_torn (by omega) hlen hn

theorem lossless_step {l : TcpLabel S} (h : Lossless c cbor s)
    (hs : (tcpWriter c cbor).step s l = some s') : Lossless c cbor s' := by
  change s.step c cbor l = some s' at hs
  cases l with
  | put item =>
    simp only [step] at hs
    have hput : Lossless c cbor { s with outbox := s.outbox.push item } := by
      refine ⟨?_, h.past, h.present, h.writing⟩
      show _ ++ s.pc.inHand ++ (s.outbox.push item).pending = _
      rw [pending_push, put_reduce, ← h.order, List.append_assoc _ _ item.toList]
      rfl
    split at hs <;> cases hs
    exact hput
  | connect =>
    simp only [step] at hs
    split at hs <;> cases hs
    rename_i hpc
    have horder := h.order
    refine ⟨by simpa [conns, hpc, TcpPc.conn?, TcpPc.inHand] using horder, h.past, ?_, by simp⟩
    rintro _ ⟨⟩
    exact ⟨by simp, .nil⟩
  | noConnection =>
    simp only [step] at hs
    split at hs <;> cases hs
    rename_i hpc
    have horder := h.order
    exact ⟨by simpa [conns, hpc, TcpPc.conn?, TcpPc.inHand, Outbox.pending] using horder, h.past,
      by simp [TcpPc.conn?], by simp⟩
  | recv => exact lossless_recv h hs
  | written =>
    simp only [step] at hs
    split at hs <;> cases hs
    rename_i hpc
    exact lossless_written h hpc
  | broken n =>
    simp only [step] at hs
    split at hs
    · rename_i hpc
      split_ifs at hs with hn
      cases hs
      exact lossless_broken h hpc hn
    · cases hs
  | noise x =>
    simp only [step] at hs
    split at hs
    · rename_i conn hpc
      split_ifs at hs with hx
      cases hs
      have horder := h.order
      obtain ⟨hpacked, hbytes⟩ := h.present conn (by rw [hpc]; rfl)
      refine ⟨by simpa [conns, hpc, TcpPc.conn?, TcpPc.inHand] using horder, h.past, ?_, by simp⟩
      rintro _ ⟨⟩
      exact ⟨hpacked, hbytes.noise hx⟩
    · cases hs

theorem lossless_of_reachable (h : (tcpWriter c cbor).Reachable s) : Lossless c cbor s :=
  Lts.invariant lossless_start (fun _ _ _ h hs => lossless_step h hs) h

theorem Lossless.spelled (h : Lossless c cbor s) : ∀ conn ∈ s.conns, conn.Spelled c cbor := by
  unfold conns
  rw [List.forall_mem_append]
  refine ⟨h.past, fun conn hconn => (h.present conn ?_).closed⟩
  rwa [Option.mem_toList] at hconn

end TcpWriter

/-- What a TCP relay has written, over its connections in turn, is a prefix of its queue, and a
reader of each connection gets the packets written on it, in order. -/
theorem tcp_lossless (c : Codec S) (cbor : PacketCbor) {s : TcpWriter S}
    (hs : (tcpWriter c cbor).Reachable s)
    (hcbor : ∀ r pkt, some r ∈ s.outbox.put → r.serialize c .cbor [] = some (.ok pkt) →
      cbor.fromSlice (cbor.toWriter pkt) = some pkt) :
    (s.conns.flatMap fun conn => conn.sent.map Prod.fst) <+: s.outbox.put.reduceOption
      ∧ ∀ conn ∈ s.conns, (∀ x ∈ conn.sent, x.1.serialize c .cbor [] = some (.ok x.2))
        ∧ TcpReader.readPackets cbor ⟨conn.bytes, []⟩ = some (conn.sent.map Prod.snd) := by
  have h := TcpWriter.lossless_of_reachable hs
  have hwritten : (s.conns.flatMap fun conn => conn.sent.map Prod.fst)
      <+: s.outbox.put.reduceOption := by
    rw [← h.order, List.append_assoc]
    exact List.prefix_append _ _
  refine ⟨hwritten, fun conn hconn => ?_⟩
  obtain ⟨hpacked, bs, rest, hbytes, hspelled, hrest⟩ := h.spelled conn hconn
  refine ⟨hpacked, ?_⟩
  rw [hbytes]
  refine hspelled.read (fun pkt hpkt => ?_) hrest
  obtain ⟨⟨r, _⟩, hx, rfl⟩ := List.mem_map.1 hpkt
  refine hcbor r _ ?_ (hpacked _ hx)
  have hmem : r ∈ s.conns.flatMap fun conn => conn.sent.map Prod.fst :=
    List.mem_flatMap.2 ⟨conn, hconn, List.mem_map.2 ⟨_, hx, rfl⟩⟩
  exact List.reduceOption_mem_iff.1 (hwritten.subset hmem)

/-- A `Flush` whose first write breaks off after 20 bytes is read once, on the next connection. -/
theorem torn_flush_read_once : ∃ s : TcpWriter Flag, (tcpWriter Flag.codec flushCbor).run
      [.put (some (.action .flush)), .connect, .recv, .broken 20, .connect,
        .noise (.word ping), .recv, .written] = some s
    ∧ (s.conns.map fun conn => TcpReader.readPackets flushCbor ⟨conn.bytes, []⟩)
      = [some [], some [flushPacket]] := by
  have hrun : (tcpWriter Flag.codec flushCbor).run
      [.put (some (.action .flush)), .connect, .recv, .broken 20, .connect,
        .noise (.word ping), .recv, .written] = some _ := rfl
  refine ⟨_, hrun, ?_⟩
  have h := (tcp_lossless Flag.codec flushCbor (Lts.reachable_of_run hrun) ?_).2
  · exact List.map_congr_left fun conn hconn => (h conn hconn).2
  · rintro r pkt hr hpkt
    have hr : some r ∈ [some (ProtocolItem.action .flush)] := hr
    obtain rfl : r = .action .flush := by simpa using hr
    cases hpkt
    rfl

end Tcp

section Quic

variable {s s' : QuicWriter S}

/-- The item between its `recv` and the end of its stream. -/
def QuicPc.inHand : QuicPc S → List (ProtocolItem S)
  | opening r | writing r | finishing r => [r]
  | connecting | handshake | ready | ended | panicked => []

namespace QuicWriter

/-- What was put on the queue is, in order, what is finished, what is in hand or kept for the next
connection, and what is queued; a task that has ended or panicked keeps nothing. -/
def NoneLost (s : QuicWriter S) : Prop :=
  s.finished ++ s.pc.inHand ++ s.outbox.pending = s.outbox.put.reduceOption

/-- Nothing is kept while an item is in hand. -/
structure Inv (s : QuicWriter S) : Prop where
  none_lost : s.NoneLost
  alone : s.pc.inHand ≠ [] → s.outbox.item = none

theorem inv_retain {r : ProtocolItem S} (h : s.Inv) (hpc : s.pc.inHand = [r]) :
    (s.retain r).Inv := by
  have hlost := h.none_lost
  have hitem := h.alone (by simp [hpc])
  refine ⟨?_, by simp [retain, QuicPc.inHand]⟩
  rw [NoneLost, hpc] at hlost
  simpa [NoneLost, retain, QuicPc.inHand, Outbox.pending, hitem] using hlost

/-- A step to a place with the same item in hand. -/
theorem Inv.move (h : s.Inv) {pc : QuicPc S} (hpc : pc.inHand = s.pc.inHand) :
    Inv { s with pc } := by
  refine ⟨?_, fun hne => h.alone (hpc ▸ hne)⟩
  have hlost := h.none_lost
  rwa [NoneLost, ← hpc] at hlost

theorem inv_recv (h : s.Inv) (hs : s.recv = some s') : s'.Inv := by
  unfold recv at hs
  split at hs
  · rename_i hpc
    obtain ⟨⟨item, outbox⟩, htake, rfl⟩ := Option.map_eq_some_iff.1 hs
    obtain ⟨hpending, hitem, hput⟩ := of_take htake
    have hlost := h.none_lost
    rw [NoneLost, hpc, hpending, ← hput] at hlost
    cases item with
    | none => exact ⟨by simpa [NoneLost, QuicPc.inHand] using hlost, by simp [QuicPc.inHand]⟩
    | some r => exact ⟨by simpa [NoneLost, QuicPc.inHand] using hlost, fun _ => hitem⟩
  · cases hs

variable [SharedMessage S] {c : Codec S} {cbor : PacketCbor}

theorem fill_isSome (o : Outbox S) (r : ProtocolItem S) : (o.fill c cbor r).isSome = true
    ↔ ∃ pkt, r.serialize c .cbor [] = some (.ok pkt)
      ∧ 16 + (cbor.toWriter pkt).length ≤ vecMax := by
  unfold Outbox.fill
  split
  · rename_i pkt hpkt
    simp [putFrame, hpkt]
  · rename_i hne
    simp only [Option.isSome_none, Bool.false_eq_true, false_iff]
    rintro ⟨pkt, hpkt, -⟩
    exact hne pkt hpkt

/-- An `open_bi` succeeds, for an item that serialises into a frame, and the connections do not end
while an item is kept. -/
def HandsOver (c : Codec S) (cbor : PacketCbor) (s : QuicWriter S) : QuicLabel S → Prop
  | .openBi ok => ok = true ∧ ∀ r, s.pc = .opening r →
      ∃ pkt, r.serialize c .cbor [] = some (.ok pkt) ∧ 16 + (cbor.toWriter pkt).length ≤ vecMax
  | .noConnection => s.outbox.item = none
  | _ => True

/-- An `open_bi` goes on to the write, or lets the item go. -/
theorem of_openBi {ok : Bool} (hs : s.openBi c cbor ok = some s') : ∃ r, s.pc = .opening r
    ∧ ((ok = true ∧ ∃ pkt outbox, s.outbox.fill c cbor r = some (pkt, outbox)
        ∧ s' = { s with outbox, pc := .writing r })
      ∨ (ok = false ∨ s.outbox.fill c cbor r = none)
        ∧ ∃ pc : QuicPc S, pc.inHand = [] ∧ s' = { s with pc }) := by
  unfold openBi at hs
  split at hs
  · rename_i r hpc
    refine ⟨r, hpc, ?_⟩
    cases ok with
    | false =>
      cases hs
      exact .inr ⟨.inl rfl, _, rfl, rfl⟩
    | true =>
      simp only [if_true, Option.some.injEq] at hs
      split at hs
      · rename_i pkt outbox hfill
        exact .inl ⟨rfl, pkt, outbox, hfill, hs.symm⟩
      · rename_i hfill
        exact .inr ⟨.inr hfill, _, rfl, hs.symm⟩
  · cases hs

theorem inv_openBi {ok : Bool} (h : s.Inv) (hs : s.openBi c cbor ok = some s')
    (hC : HandsOver c cbor s (.openBi ok)) : s'.Inv := by
  obtain ⟨r, hpc, ⟨-, pkt, outbox, hfill, rfl⟩ | ⟨hfail, -⟩⟩ := of_openBi hs
  · have hr : s.pc.inHand = [r] := by rw [hpc]; rfl
    obtain ⟨-, -, -, hitem, hpending, hput⟩ := of_fill hfill
    have hlost := h.none_lost
    rw [NoneLost, hr] at hlost
    refine ⟨?_, fun _ => hitem.trans (h.alone (by simp [hr]))⟩
    simpa [NoneLost, QuicPc.inHand, hpending, hput] using hlost
  · have hsome : (s.outbox.fill c cbor r).isSome = true := (fill_isSome s.outbox r).2 (hC.2 r hpc)
    rcases hfail with hok | hfill
    · simp [hok] at hC
      exact absurd hC.1 (by simp)
    · simp [hfill] at hsome

/-- The task that ends takes the item it kept with it. -/
theorem of_noConnection (hs : s.step c cbor .noConnection = some s') :
    s.pc = .connecting ∧ s' = { s with outbox.item := none, pc := .ended } := by
  simp only [step] at hs
  split at hs <;> cases hs
  rename_i hpc
  exact ⟨hpc, rfl⟩

theorem inv_noConnection (h : s.Inv) (hs : s.step c cbor .noConnection = some s')
    (hC : HandsOver c cbor s .noConnection) : s'.Inv := by
  obtain ⟨hpc, rfl⟩ := of_noConnection hs
  have hitem : s.outbox.item = none := hC
  have hlost := h.none_lost
  refine ⟨?_, fun _ => rfl⟩
  simpa [NoneLost, hpc, QuicPc.inHand, Outbox.pending, hitem] using hlost

theorem inv_step {l : QuicLabel S} (h : s.Inv) (hs : (quicWriter c cbor).step s l = some s')
    (hC : HandsOver c cbor s l) : s'.Inv := by
  change s.step c cbor l = some s' at hs
  cases l with
  | put item =>
    simp only [step] at hs
    have hput : Inv { s with outbox := s.outbox.push item } := by
      refine ⟨?_, h.alone⟩
      have hlost := h.none_lost
      rw [NoneLost] at hlost ⊢
      rw [pending_push, put_reduce, ← hlost, List.append_assoc _ _ item.toList]
    split at hs <;> cases hs
    exact hput
  | connect =>
    simp only [step] at hs
    split at hs <;> cases hs
    rename_i hpc
    exact h.move (by rw [hpc]; rfl)
  | noConnection => exact inv_noConnection h hs hC
  | handshake ok =>
    simp only [step] at hs
    split at hs <;> cases hs
    rename_i hpc
    exact h.move (by rw [hpc]; cases ok <;> rfl)
  | recv => exact inv_recv h hs
  | openBi ok => exact inv_openBi h hs hC
  | write ok =>
    simp only [step] at hs
    split at hs <;> cases hs
    rename_i r hpc
    cases ok with
    | true => exact h.move (by rw [hpc]; rfl)
    | false => exact inv_retain h (by rw [hpc]; rfl)
  | finish ok =>
    simp only [step] at hs
    split at hs <;> cases hs
    rename_i r hpc
    cases ok with
    | true =>
      have hlost := h.none_lost
      exact ⟨by simpa [NoneLost, hpc, QuicPc.inHand] using hlost, by simp [QuicPc.inHand]⟩
    | false => exact inv_retain h (by rw [hpc]; rfl)

end QuicWriter

end Quic

end MessageBus
