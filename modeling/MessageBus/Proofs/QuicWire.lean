import MessageBus.Proofs.BiStreams
import MessageBus.Proofs.Writers

/-!
# What the bi-streams of a QUIC relay deliver

The items of the queue go out in order, each on a bi-stream of its own, and on another one after
each failed write or `finish` until a `finish` comes back (`Log`). A `finish` may fail though the
frame has got through, and then the item is read again from the next connection; nothing else is
read twice, nothing in another order, and nothing that was not put on the queue.
-/

namespace MessageBus

variable {S : Type} [SharedMessage S] {c : Codec S} {cbor : PacketCbor}

section Log

/-- A bi-stream carries the frame of an item of these. -/
structure BiStream.Sound (c : Codec S) (cbor : PacketCbor) (taken : List (ProtocolItem S))
    (b : BiStream S) : Prop where
  item : taken[b.nth]? = some b.item
  packed : b.item.serialize c .cbor [] = some (.ok b.pkt)
  frame : b.frame = (Chunk.frame 1 0 (cbor.toWriter b.pkt)).bytes
  fits : (cbor.toWriter b.pkt).length ≤ vecMax
  arrived : b.arrived ≤ b.frame.length
  finished : b.finished = true → b.whole = true

/-- The later of two bi-streams is for a later item, or for the same one where the earlier
failed. -/
def BiStream.Before (a b : BiStream S) : Prop :=
  a.nth < b.nth ∨ a.nth = b.nth ∧ a.finished = false

/-- The bi-streams opened for the items taken off the queue, the last of which may be still to
go out. -/
structure Log (c : Codec S) (cbor : PacketCbor) (taken : List (ProtocolItem S))
    (streams : List (BiStream S)) (dropped : List ℕ) (held : Bool) : Prop where
  sound : ∀ b ∈ streams, b.Sound c cbor taken
  order : streams.Pairwise BiStream.Before
  unsent : held = true → ∀ b ∈ streams, b.finished = true → b.nth + 1 < taken.length
  covered : ∀ k < taken.length, (∃ b ∈ streams, b.nth = k ∧ b.finished = true) ∨ k ∈ dropped
    ∨ held = true ∧ k + 1 = taken.length

variable {taken : List (ProtocolItem S)} {streams : List (BiStream S)} {dropped : List ℕ}
  {held : Bool}

theorem BiStream.Sound.nth_lt {b : BiStream S} (h : b.Sound c cbor taken) :
    b.nth < taken.length :=
  (List.getElem?_eq_some_iff.1 h.item).1

theorem Log.start : Log c cbor ([] : List (ProtocolItem S)) [] [] false :=
  ⟨by simp, .nil, by simp, by simp⟩

theorem Log.take (h : Log c cbor taken streams dropped false) (r : ProtocolItem S) :
    Log c cbor (taken ++ [r]) streams dropped true := by
  refine ⟨fun b hb => ?_, h.order, fun _ b hb _ => ?_, fun k hk => ?_⟩
  · have hsound := h.sound b hb
    exact { hsound with item := by rw [List.getElem?_append_left hsound.nth_lt, hsound.item] }
  · have := (h.sound b hb).nth_lt
    rw [List.length_append, List.length_singleton]
    omega
  · rw [List.length_append, List.length_singleton] at hk ⊢
    by_cases hlt : k < taken.length
    · rcases h.covered k hlt with hb | hd | ⟨⟨⟩, -⟩
      · exact .inl hb
      · exact .inr (.inl hd)
    · exact .inr (.inr ⟨rfl, by omega⟩)

/-- Another bi-stream for the item that is still to go out. -/
theorem Log.openBi {b : BiStream S} (h : Log c cbor taken streams dropped true)
    (hb : b.Sound c cbor taken) (hnth : b.nth + 1 = taken.length) (hfin : b.finished = false) :
    Log c cbor taken (streams ++ [b]) dropped true := by
  refine ⟨?_, ?_, ?_, fun k hk => ?_⟩
  · rw [List.forall_mem_append, List.forall_mem_singleton]
    exact ⟨h.sound, hb⟩
  · rw [List.pairwise_append]
    refine ⟨h.order, List.pairwise_singleton _ _, fun a ha b' hb' => ?_⟩
    rw [List.mem_singleton] at hb'
    subst hb'
    have hlt := (h.sound a ha).nth_lt
    rcases hfa : a.finished
    · have : a.nth < b'.nth ∨ a.nth = b'.nth := by omega
      exact this.imp id fun heq => ⟨heq, hfa⟩
    · have := h.unsent rfl a ha hfa
      exact .inl (by omega)
  · intro _ a ha hfa
    rw [List.mem_append, List.mem_singleton] at ha
    rcases ha with ha | rfl
    · exact h.unsent rfl a ha hfa
    · rw [hfin] at hfa
      cases hfa
  · exact (h.covered k hk).imp_left fun ⟨a, ha, hk⟩ => ⟨a, List.mem_append_left _ ha, hk⟩

/-- The last bi-stream changes as far as its item, its order and what is finished go. -/
theorem Log.setLast {b b' : BiStream S} (h : Log c cbor taken (streams ++ [b]) dropped true)
    (hb : b'.Sound c cbor taken) (hnth : b'.nth = b.nth) (hlast : b.nth + 1 = taken.length)
    (hfin : b'.finished = !held) : Log c cbor taken (streams ++ [b']) dropped held := by
  have hsound := h.sound
  have horder := h.order
  rw [List.forall_mem_append, List.forall_mem_singleton] at hsound
  rw [List.pairwise_append] at horder
  refine ⟨?_, ?_, ?_, fun k hk => ?_⟩
  · rw [List.forall_mem_append, List.forall_mem_singleton]
    exact ⟨hsound.1, hb⟩
  · rw [List.pairwise_append]
    refine ⟨horder.1, List.pairwise_singleton _ _, fun a ha x hx => ?_⟩
    rw [List.mem_singleton] at hx
    subst hx
    have := horder.2.2 a ha b (List.mem_singleton.2 rfl)
    unfold BiStream.Before at this ⊢
    rwa [hnth]
  · rintro rfl a ha hfa
    rw [List.mem_append, List.mem_singleton] at ha
    rcases ha with ha | rfl
    · exact h.unsent rfl a (List.mem_append_left _ ha) hfa
    · rw [hfin] at hfa
      cases hfa
  · rcases h.covered k hk with ⟨a, ha, hka, hfa⟩ | hd | ⟨-, hk⟩
    · rw [List.mem_append, List.mem_singleton] at ha
      rcases ha with ha | rfl
      · exact .inl ⟨a, List.mem_append_left _ ha, hka, hfa⟩
      · have := h.unsent rfl a (by simp) hfa
        omega
    · exact .inr (.inl hd)
    · rcases held
      · exact .inl ⟨b', by simp, by omega, hfin⟩
      · exact .inr (.inr ⟨rfl, hk⟩)

/-- The item that is still to go out is lost. -/
theorem Log.drop (h : Log c cbor taken streams dropped true) :
    Log c cbor taken streams (dropped ++ [taken.length - 1]) false := by
  refine ⟨h.sound, h.order, by simp, fun k hk => ?_⟩
  rcases h.covered k hk with hb | hd | ⟨-, hk⟩
  · exact .inl hb
  · exact .inr (.inl (List.mem_append_left _ hd))
  · refine .inr (.inl (List.mem_append_right _ ?_))
    rw [List.mem_singleton]
    omega

end Log

/-- The item on the open bi-stream. -/
def QuicPc.sending : QuicPc S → Option (ProtocolItem S)
  | writing r | finishing r => some r
  | connecting | handshake | ready | opening _ | ended | panicked => none

omit [SharedMessage S] in
theorem QuicPc.sending_eq_none {pc : QuicPc S} (h : pc.inHand = []) : pc.sending = none := by
  cases pc <;> first | rfl | cases h

namespace QuicWire

variable {s s' : QuicWire S}

/-- All bi-streams so far. -/
def streams (s : QuicWire S) : List (BiStream S) := s.conns.flatten

omit [SharedMessage S] in
theorem streams_eq (s : QuicWire S) :
    s.streams = s.past.flatten ++ s.present ++ s.current.toList := by
  simp [streams, conns]

/-- What a step does to the writer and to its bi-streams. -/
inductive Move (c : Codec S) (cbor : PacketCbor) (s : QuicWire S) : QuicWire S → Prop
  | put (item : Option (ProtocolItem S)) :
      Move c cbor s { s with writer.outbox := s.writer.outbox.push item }
  | rest {pc : QuicPc S} : s.writer.pc.inHand = [] → pc.inHand = [] →
      Move c cbor s { s with writer.pc := pc }
  | noConnection : s.writer.pc = .connecting →
      Move c cbor s { s with
        writer.pc := .ended, writer.outbox.item := none,
        dropped := s.dropped ++ (s.writer.outbox.item.map fun _ => s.taken.length - 1).toList }
  | handshake {pc : QuicPc S} : s.writer.pc.inHand = [] → pc.inHand = [] →
      Move c cbor s
        { s with writer.pc := pc, past := s.past ++ [s.present], present := [] }
  | retry (r : ProtocolItem S) : s.writer.pc = .ready → s.writer.outbox.item = some r →
      Move c cbor s { s with writer.pc := .opening r, writer.outbox.item := none }
  | take (r : ProtocolItem S) (rx : List (Option (ProtocolItem S))) : s.writer.pc = .ready →
      s.writer.outbox.item = none → s.writer.outbox.rx = some r :: rx →
      Move c cbor s { s with
        writer.pc := .opening r, writer.outbox.rx := rx, taken := s.taken ++ [r] }
  | marker (rx : List (Option (ProtocolItem S))) : s.writer.pc = .ready →
      s.writer.outbox.item = none → s.writer.outbox.rx = none :: rx →
      Move c cbor s { s with writer.pc := .connecting, writer.outbox.rx := rx }
  | openBi (r : ProtocolItem S) {pkt : ProtocolPacket} {outbox : Outbox S} :
      s.writer.pc = .opening r → s.writer.outbox.fill c cbor r = some (pkt, outbox) →
      Move c cbor s { s with
        writer.pc := .writing r, writer.outbox := outbox,
        current := some ⟨s.taken.length - 1, r, pkt, outbox.headerBuff, 0, false⟩ }
  | drop (r : ProtocolItem S) {pc : QuicPc S} : s.writer.pc = .opening r → pc.inHand = [] →
      Move c cbor s { s with writer.pc := pc, dropped := s.dropped ++ [s.taken.length - 1] }
  | wrote (r : ProtocolItem S) : s.writer.pc = .writing r →
      Move c cbor s { s with writer.pc := .finishing r }
  | failed (r : ProtocolItem S) : s.writer.pc = .writing r ∨ s.writer.pc = .finishing r →
      Move c cbor s { s.shut false with writer := s.writer.retain r }
  | finish (r : ProtocolItem S) : s.writer.pc = .finishing r → s.current.all BiStream.whole = true →
      Move c cbor s { s.shut true with
        writer.pc := .ready, writer.finished := s.writer.finished ++ [r] }
  | arrive (b : BiStream S) (n : ℕ) : s.current = some b → b.arrived + n ≤ b.frame.length →
      Move c cbor s { s with current := some { b with arrived := b.arrived + n } }

theorem move {l : QuicWireLabel S} (hs : s.step c cbor l = some s') : Move c cbor s s' := by
  obtain ⟨⟨outbox, pc, finished⟩, taken, past, present, current, dropped⟩ := s
  cases l with
  | arrive n =>
    rcases current with _ | b <;> simp only [step, reduceCtorEq] at hs
    split_ifs at hs with hle
    cases hs
    exact .arrive b n rfl hle
  | write l =>
    obtain ⟨writer, hw, hs⟩ := Option.bind_eq_some_iff.1 hs
    obtain ⟨t, ht, rfl⟩ := Option.map_eq_some_iff.1 hs
    cases l with
    | put item =>
      cases ht
      simp only [QuicWriter.step] at hw
      split at hw <;> cases hw
      exact .put item
    | connect =>
      cases ht
      rcases pc <;> cases hw
      exact .rest rfl rfl
    | noConnection =>
      cases ht
      rcases pc <;> cases hw
      exact .noConnection rfl
    | handshake ok =>
      rcases pc <;> cases hw
      rcases ok <;> cases ht
      · exact .rest rfl rfl
      · exact .handshake rfl rfl
    | recv =>
      obtain ⟨rx, item, headerBuff, put⟩ := outbox
      rcases pc <;> simp only [QuicWriter.step, QuicWriter.recv, reduceCtorEq] at hw
      rcases item with _ | r
      · rcases rx with _ | ⟨_ | r, rx⟩ <;> cases ht <;> cases hw
        · exact .marker rx rfl rfl rfl
        · exact .take r rx rfl rfl rfl
      · cases ht
        cases hw
        exact .retry r rfl rfl
    | openBi ok =>
      rcases pc with _ | _ | _ | r | _ | _ | _ | _ <;>
        simp only [QuicWriter.step, QuicWriter.openBi, reduceCtorEq] at hw
      cases ht
      cases hw
      rcases hfill : outbox.fill c cbor r with _ | ⟨pkt, outbox'⟩ <;> rcases ok <;>
        simp only [openBi, hfill, Bool.false_eq_true, if_false, if_true]
      · exact .drop r rfl rfl
      · exact .drop r rfl rfl
      · exact .drop r rfl rfl
      · exact .openBi r rfl hfill
    | write ok =>
      rcases pc with _ | _ | _ | _ | r | _ | _ | _ <;>
        simp only [QuicWriter.step, reduceCtorEq] at hw
      cases hw
      rcases ok <;> simp only [track] at ht
      · split_ifs at ht
        cases ht
        exact .failed r (.inl rfl)
      · cases ht
        exact .wrote r rfl
    | finish ok =>
      rcases pc with _ | _ | _ | _ | _ | r | _ | _ <;>
        simp only [QuicWriter.step, reduceCtorEq] at hw
      cases hw
      simp only [track] at ht
      split_ifs at ht with hwhole
      cases ht
      rcases ok
      · exact .failed r (.inr rfl)
      · exact .finish r rfl (by simpa using hwhole)

/-- What the writer has taken and not let go: the item in hand, or kept for the next connection. -/
def holding (s : QuicWire S) : List (ProtocolItem S) :=
  s.writer.pc.inHand ++ s.writer.outbox.item.toList

structure Inv (c : Codec S) (cbor : PacketCbor) (s : QuicWire S) : Prop where
  log : Log c cbor s.taken s.streams s.dropped (!s.holding.isEmpty)
  queue : s.taken ++ s.writer.outbox.rx.reduceOption = s.writer.outbox.put.reduceOption
  last : ∀ r ∈ s.holding, s.taken.getLast? = some r
  alone : s.writer.pc.inHand ≠ [] → s.writer.outbox.item = none
  sending : s.current.map BiStream.item = s.writer.pc.sending
  current : ∀ b, s.current = some b → b.finished = false ∧ b.nth + 1 = s.taken.length
  finished : (s.streams.filter BiStream.finished).map BiStream.item = s.writer.finished

theorem inv_start : Inv c cbor (start : QuicWire S) :=
  ⟨.start, rfl, by simp [holding, start, QuicWriter.start, QuicPc.inHand, Outbox.new],
    by simp [start, QuicWriter.start, QuicPc.inHand], rfl, by simp [start], rfl⟩

/-- A step of the writer between two places where it has nothing in hand. -/
theorem Inv.rest (h : Inv c cbor s) {pc : QuicPc S} (hs : s.writer.pc.inHand = [])
    (hpc : pc.inHand = []) : Inv c cbor { s with writer.pc := pc } := by
  have hholding : holding { s with writer.pc := pc } = s.holding := by
    simp only [holding, hs, hpc]
  refine ⟨?_, h.queue, ?_, fun hne => absurd hpc hne, ?_, h.current, h.finished⟩
  · rw [hholding]
    exact h.log
  · rw [hholding]
    exact h.last
  · rw [h.sending, QuicPc.sending_eq_none hs, QuicPc.sending_eq_none hpc]

/-- The last of the bi-streams is the one that is open. -/
theorem Inv.log_current (h : Inv c cbor s) {r : ProtocolItem S} (hpc : s.writer.pc.inHand = [r])
    {b : BiStream S} (hb : s.current = some b) :
    Log c cbor s.taken (s.past.flatten ++ s.present ++ [b]) s.dropped true := by
  have hlog := h.log
  rw [streams_eq, hb, holding, hpc] at hlog
  exact hlog

theorem inv_retry (h : Inv c cbor s) {r : ProtocolItem S} (hpc : s.writer.pc = .ready)
    (hr : s.writer.outbox.item = some r) :
    Inv c cbor { s with writer.pc := .opening r, writer.outbox.item := none } := by
  have hholding : holding { s with writer.pc := .opening r, writer.outbox.item := none }
      = s.holding := by
    simp [holding, hpc, hr, QuicPc.inHand]
  refine ⟨?_, h.queue, ?_, fun _ => rfl, ?_, h.current, h.finished⟩
  · rw [hholding]
    exact h.log
  · rw [hholding]
    exact h.last
  · rw [h.sending, hpc]
    rfl

theorem inv_take (h : Inv c cbor s) {r : ProtocolItem S} {rx : List (Option (ProtocolItem S))}
    (hpc : s.writer.pc = .ready) (hitem : s.writer.outbox.item = none)
    (hrx : s.writer.outbox.rx = some r :: rx) :
    Inv c cbor { s with
      writer.pc := .opening r, writer.outbox.rx := rx, taken := s.taken ++ [r] } := by
  have hlog := h.log
  have hqueue := h.queue
  have hsending := h.sending
  rw [holding, hpc, hitem] at hlog
  rw [hrx] at hqueue
  rw [hpc] at hsending
  have hcurrent : s.current = none := Option.map_eq_none_iff.1 hsending
  refine ⟨?_, ?_, ?_, fun _ => hitem, ?_, ?_, h.finished⟩
  · rw [holding, hitem]
    exact hlog.take r
  · simpa using hqueue
  · simp [holding, hitem, QuicPc.inHand]
  · rw [hcurrent]
    rfl
  · simp [hcurrent]

theorem inv_marker (h : Inv c cbor s) {rx : List (Option (ProtocolItem S))}
    (hpc : s.writer.pc = .ready) (hrx : s.writer.outbox.rx = none :: rx) :
    Inv c cbor { s with writer.pc := .connecting, writer.outbox.rx := rx } := by
  have hrest : Inv c cbor { s with writer.pc := .connecting } := h.rest (by rw [hpc]; rfl) rfl
  refine ⟨hrest.log, ?_, hrest.last, hrest.alone, hrest.sending, hrest.current, hrest.finished⟩
  have hqueue := h.queue
  rw [hrx] at hqueue
  simpa using hqueue

theorem inv_openBi (h : Inv c cbor s) {r : ProtocolItem S} {pkt : ProtocolPacket}
    {outbox : Outbox S} (hpc : s.writer.pc = .opening r)
    (hfill : s.writer.outbox.fill c cbor r = some (pkt, outbox)) :
    Inv c cbor { s with
      writer.pc := .writing r, writer.outbox := outbox,
      current := some ⟨s.taken.length - 1, r, pkt, outbox.headerBuff, 0, false⟩ } := by
  obtain ⟨hpkt, hframe, hfits, hitem, hpending, hput⟩ := of_fill hfill
  have halone : s.writer.outbox.item = none := h.alone (by rw [hpc]; simp [QuicPc.inHand])
  have hlog := h.log
  have hqueue := h.queue
  have hsending := h.sending
  have hlast := h.last r (by rw [holding, hpc]; simp [QuicPc.inHand])
  rw [hpc] at hsending
  have hcurrent : s.current = none := Option.map_eq_none_iff.1 hsending
  have hrx : outbox.rx.reduceOption = s.writer.outbox.rx.reduceOption := by
    simpa [Outbox.pending, hitem, halone] using hpending
  have hpos : s.taken.length - 1 + 1 = s.taken.length := by
    rcases hn : s.taken with _ | ⟨x, xs⟩
    · rw [hn] at hlast
      cases hlast
    · rfl
  rw [List.getLast?_eq_getElem?] at hlast
  rw [streams_eq, hcurrent, holding, hpc, Option.toList_none, List.append_nil] at hlog
  refine ⟨?_, ?_, ?_, fun _ => hitem.trans halone, rfl, ?_, ?_⟩
  · rw [streams_eq, holding]
    refine hlog.openBi ⟨hlast, hpkt, hframe, hfits, Nat.zero_le _, by rintro ⟨⟩⟩ hpos rfl
  · rw [hrx, hput]
    exact hqueue
  · have := h.last
    rw [holding, hpc, halone] at this
    rwa [holding, hitem, halone]
  · rintro _ ⟨⟩
    exact ⟨rfl, hpos⟩
  · have hfin := h.finished
    rw [streams_eq, hcurrent, Option.toList_none, List.append_nil] at hfin
    rw [streams_eq, Option.toList_some, List.filter_append, List.map_append, hfin]
    simp

theorem inv_drop (h : Inv c cbor s) {r : ProtocolItem S} {pc : QuicPc S}
    (hs : s.writer.pc = .opening r) (hpc : pc.inHand = []) :
    Inv c cbor { s with writer.pc := pc, dropped := s.dropped ++ [s.taken.length - 1] } := by
  have halone : s.writer.outbox.item = none := h.alone (by rw [hs]; simp [QuicPc.inHand])
  have hlog := h.log
  rw [holding, hs] at hlog
  refine ⟨?_, h.queue, ?_, fun hne => absurd hpc hne, ?_, h.current, h.finished⟩
  · rw [holding, hpc, halone]
    exact hlog.drop
  · simp [holding, hpc, halone]
  · rw [h.sending, hs, QuicPc.sending_eq_none hpc]
    rfl

/-- What the task has kept goes with it. -/
theorem inv_noConnection (h : Inv c cbor s) (hpc : s.writer.pc = .connecting) :
    Inv c cbor { s with
      writer.pc := .ended, writer.outbox.item := none,
      dropped := s.dropped
        ++ (s.writer.outbox.item.map fun _ => s.taken.length - 1).toList } := by
  have hlog := h.log
  rw [holding, hpc] at hlog
  refine ⟨?_, h.queue, by simp [holding, QuicPc.inHand], fun _ => rfl, ?_, h.current, h.finished⟩
  · rcases hitem : s.writer.outbox.item with - | r <;> rw [hitem] at hlog
    · rw [Option.map_none, Option.toList_none, List.append_nil]
      exact hlog
    · exact hlog.drop
  · rw [h.sending, hpc]
    rfl

theorem inv_wrote (h : Inv c cbor s) {r : ProtocolItem S} (hpc : s.writer.pc = .writing r) :
    Inv c cbor { s with writer.pc := .finishing r } := by
  have hholding : holding { s with writer.pc := .finishing r } = s.holding := by
    rw [holding, holding, hpc]
    rfl
  refine ⟨?_, h.queue, ?_, fun _ => h.alone (by rw [hpc]; simp [QuicPc.inHand]), ?_, h.current,
    h.finished⟩
  · rw [hholding]
    exact h.log
  · rw [hholding]
    exact h.last
  · rw [h.sending, hpc]
    rfl

/-- While the writer is in `write_all` or `finish` a bi-stream is open. -/
theorem Inv.exists_current (h : Inv c cbor s) {r : ProtocolItem S}
    (hpc : s.writer.pc.sending = some r) : ∃ b, s.current = some b ∧ b.item = r := by
  have := h.sending
  rw [hpc] at this
  exact Option.map_eq_some_iff.1 this

omit [SharedMessage S] in
theorem inHand_of_sending {pc : QuicPc S} {r : ProtocolItem S} (h : pc.sending = some r) :
    pc.inHand = [r] := by
  cases pc <;> cases h <;> rfl

theorem inv_failed (h : Inv c cbor s) {r : ProtocolItem S}
    (hpc : s.writer.pc.sending = some r) :
    Inv c cbor { s.shut false with writer := s.writer.retain r } := by
  obtain ⟨b, hb, -⟩ := h.exists_current hpc
  obtain ⟨hfin, -⟩ := h.current b hb
  have hhand := inHand_of_sending hpc
  have halone : s.writer.outbox.item = none := h.alone (by rw [hhand]; simp)
  have hopen : { b with finished := false } = b := by rw [← hfin]
  have hstreams : streams { s.shut false with writer := s.writer.retain r } = s.streams := by
    rw [streams_eq, streams_eq]
    simp [shut, hb, hopen]
  have hholding : holding { s.shut false with writer := s.writer.retain r } = s.holding := by
    rw [holding, holding, hhand, halone]
    rfl
  refine ⟨?_, h.queue, ?_, fun hne => absurd rfl hne, rfl, by rintro _ ⟨⟩, ?_⟩
  · rw [hholding, hstreams]
    exact h.log
  · rw [hholding]
    exact h.last
  · rw [hstreams]
    exact h.finished

theorem inv_finish (h : Inv c cbor s) {r : ProtocolItem S} (hpc : s.writer.pc = .finishing r)
    (hwhole : s.current.all BiStream.whole = true) :
    Inv c cbor { s.shut true with
      writer.pc := .ready, writer.finished := s.writer.finished ++ [r] } := by
  obtain ⟨b, hb, hr⟩ := h.exists_current (r := r) (by rw [hpc]; rfl)
  obtain ⟨hfin, hnth⟩ := h.current b hb
  have halone : s.writer.outbox.item = none := h.alone (by rw [hpc]; simp [QuicPc.inHand])
  have hlog := h.log_current (r := r) (by rw [hpc]; rfl) hb
  have hsound := hlog.sound b (by simp)
  have hfinished := h.finished
  have hstreams : streams { s.shut true with
        writer.pc := .ready, writer.finished := s.writer.finished ++ [r] }
      = s.past.flatten ++ s.present ++ [{ b with finished := true }] := by
    rw [streams_eq]
    simp [shut, hb]
  rw [hb] at hwhole
  rw [streams_eq, hb, Option.toList_some, List.filter_append, List.filter_singleton, hfin]
    at hfinished
  refine ⟨?_, h.queue, ?_, fun hne => absurd rfl hne, rfl, by rintro _ ⟨⟩, ?_⟩
  · have hset : Log c cbor s.taken (s.past.flatten ++ s.present ++ [{ b with finished := true }])
        s.dropped false := hlog.setLast { hsound with finished := fun _ => hwhole } rfl hnth rfl
    rw [hstreams, holding]
    simpa [shut, halone, QuicPc.inHand] using hset
  · simp [holding, shut, halone, QuicPc.inHand]
  · rw [hstreams, List.filter_append, List.filter_singleton, List.map_append]
    rw [← hfinished]
    simp [hr]

theorem inv_arrive (h : Inv c cbor s) {b : BiStream S} {n : ℕ} (hb : s.current = some b)
    (hle : b.arrived + n ≤ b.frame.length) :
    Inv c cbor { s with current := some { b with arrived := b.arrived + n } } := by
  obtain ⟨hfin, hnth⟩ := h.current b hb
  have hsending := h.sending
  rw [hb, Option.map_some] at hsending
  have hhand := inHand_of_sending hsending.symm
  have hlog := h.log_current hhand hb
  have hsound := hlog.sound b (by simp)
  refine ⟨?_, h.queue, h.last, h.alone, hsending, ?_, ?_⟩
  · have hsound : BiStream.Sound c cbor s.taken { b with arrived := b.arrived + n } :=
      { hsound with
        arrived := hle
        finished := fun hf => absurd (hfin.symm.trans hf) (by simp) }
    have hset : Log c cbor s.taken
        (s.past.flatten ++ s.present ++ [{ b with arrived := b.arrived + n }]) s.dropped true :=
      hlog.setLast hsound rfl hnth hfin
    rw [streams_eq, holding, hhand]
    exact hset
  · rintro _ ⟨⟩
    exact ⟨hfin, hnth⟩
  · have hfinished := h.finished
    rw [streams_eq, hb, Option.toList_some, List.filter_append, List.filter_singleton, hfin]
      at hfinished
    rw [streams_eq, Option.toList_some, List.filter_append, List.filter_singleton, hfin]
    exact hfinished

theorem inv_step {l : QuicWireLabel S} (h : Inv c cbor s) (hs : s.step c cbor l = some s') :
    Inv c cbor s' := by
  cases move hs with
  | put item =>
    refine ⟨h.log, ?_, h.last, h.alone, h.sending, h.current, h.finished⟩
    rw [rx_reduce, put_reduce, ← List.append_assoc, h.queue]
  | rest hpc hpc' => exact h.rest hpc hpc'
  | noConnection hpc => exact inv_noConnection h hpc
  | @handshake pc hpc hpc' =>
    have hrest := h.rest hpc hpc'
    have hsending := h.sending
    rw [QuicPc.sending_eq_none hpc] at hsending
    have hcurrent : s.current = none := Option.map_eq_none_iff.1 hsending
    have hstreams : streams { s with
        writer.pc := pc, past := s.past ++ [s.present], present := [] } = s.streams := by
      rw [streams_eq, streams_eq, hcurrent]
      simp
    refine ⟨?_, hrest.queue, hrest.last, hrest.alone, hrest.sending, hrest.current, ?_⟩
    · rw [hstreams]
      exact hrest.log
    · rw [hstreams]
      exact h.finished
  | retry r hpc hr => exact inv_retry h hpc hr
  | take r rx hpc hitem hrx => exact inv_take h hpc hitem hrx
  | marker rx hpc _ hrx => exact inv_marker h hpc hrx
  | openBi r hpc hfill => exact inv_openBi h hpc hfill
  | drop r hpc hpc' => exact inv_drop h hpc hpc'
  | wrote r hpc => exact inv_wrote h hpc
  | failed r hpc => exact inv_failed h (by rcases hpc with hpc | hpc <;> rw [hpc] <;> rfl)
  | finish r hpc hwhole => exact inv_finish h hpc hwhole
  | arrive b n hb hle => exact inv_arrive h hb hle

end QuicWire

end MessageBus
