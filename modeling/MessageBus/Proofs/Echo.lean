import MessageBus.Proofs.NoEcho

/-!
# Messages that go back where they came from

Where a pair of buses is not quiet, a message that one side's table lists is read by a side whose
table lists it as a plain message, and put on that side's item channel again (`exists_echo`).
-/

namespace MessageBus

variable {S : Type} [CloneMessage S] {c : Codec S} {L : Side → Endpoint}

section Loud

variable {s : LinkState S} {x : Side} {e : Endpoint} {d : Call S}

/-- A process once its relay is initialized. -/
def Process.inited (e : Endpoint) : Process S :=
  { Process.new with relay := { TcpRelay.new with selfId := e.relayId, started := true } }

/-- Such a process with one call. -/
def Process.calling (e : Endpoint) (d : Call S) : Process S :=
  { Process.inited e with calls := [d] }

/-- Its relay once the call has put its message on the item channel. -/
def TcpRelay.holding (e : Endpoint) (d : Call S) : TcpRelay S :=
  { (Process.inited e : Process S).relay with
    items := [(some (.send 0 d.msg false), d.origin)]
    sent := [d] }

theorem permit_new (tt : TypeTag) : (RelayContext.new.tryReserve tt).2 = true := by
  simp [RelayContext.tryReserve, RelayContext.entry, RelayContext.new, RelayReceiverContext.new]

theorem not_panics (h : d.kind.clones = true → CloneMessage.tryClone d.msg = true)
    (hk : d.kind.isReq = false) :
    (d.kind.clones && !CloneMessage.tryClone d.msg) = false ∧ d.kind.withError = false := by
  constructor
  · rcases hb : d.kind.clones with _ | _
    · rfl
    · rw [h hb]
      rfl
  · cases hkind : d.kind with
    | request options rid eid =>
      rw [hkind] at hk
      cases hk
    | _ => rfl

theorem deliver_calling {r : Receiver} {l : List Receiver}
    (hcl : d.kind.clones = true → CloneMessage.tryClone d.msg = true) (hk : d.kind.isReq = false)
    (hr : r.id ≠ e.relayId) :
    (Process.calling e { d with todo := some (r :: l) }).deliver e 0 0 0
      = some (.calling e { d with todo := some l }) := by
  simp [Process.deliver, Process.calling, hr, not_panics hcl hk]

theorem deliver_calling_relay {r : Receiver} {l : List Receiver}
    (hcl : d.kind.clones = true → CloneMessage.tryClone d.msg = true) (hk : d.kind.isReq = false)
    (hs : SharedMessage.isShared d.msg = true) (hr : r.id = e.relayId) :
    ∃ p, (Process.calling e { d with todo := some (r :: l) }).deliver e 0 0 0 = some p
      ∧ p.relay = .holding e { d with todo := some l } := by
  simp [Process.deliver, Process.calling, Process.inited, Process.new, RelayWrapper.new, hr,
    not_panics hcl hk, Process.listen, hk, permit_new, TcpRelay.sendMsg, hs, TcpRelay.sendItem,
    TcpRelay.new, TcpRelay.holding]

/-- A plain call that has the relay among its receivers comes to put its message on the item
channel. -/
theorem reach_put (hcl : d.kind.clones = true → CloneMessage.tryClone d.msg = true)
    (hk : d.kind.isReq = false) (hs : SharedMessage.isShared d.msg = true) :
    ∀ (l : List Receiver) {s : LinkState S}, (link c L).Reachable s →
      s.procs x = .calling (L x) { d with todo := some l } → (∃ r ∈ l, r.id = (L x).relayId) →
      ∃ (s' : LinkState S) (todo : List Receiver), (link c L).Reachable s' ∧ s'.wire = s.wire
        ∧ (∀ y, y ≠ x → s'.procs y = s.procs y)
        ∧ (s'.procs x).relay = .holding (L x) { d with todo := some todo }
  | [], _, _, _, h => by
    obtain ⟨r, hr, -⟩ := h
    cases hr
  | r :: l, s, hreach, hp, h => by
    have hstep : ∀ p, (s.procs x).deliver (L x) 0 0 0 = some p →
        (link c L).step s (x, .act (.deliver 0 0 0)) = some (s.set x p) := by
      intro p hd
      show ((s.procs x).deliver (L x) 0 0 0).map (s.set x) = _
      rw [hd]
      rfl
    by_cases hr : r.id = (L x).relayId
    · obtain ⟨p, hd, hrelay⟩ := deliver_calling_relay (l := l) hcl hk hs hr
      refine ⟨s.set x p, l, hreach.step (hstep p (hp ▸ hd)), rfl, fun y hy => ?_, ?_⟩
      · rw [LinkState.procs_set, if_neg hy]
      · rw [LinkState.procs_set, if_pos rfl]
        exact hrelay
    · have hd := deliver_calling (e := L x) (l := l) hcl hk hr
      obtain ⟨s', todo, hs', hwire, hother, hrelay⟩ := reach_put hcl hk hs l
        (hreach.step (hstep _ (hp ▸ hd))) (by rw [LinkState.procs_set, if_pos rfl]) (by
          obtain ⟨r', hr', hid⟩ := h
          rcases List.mem_cons.1 hr' with rfl | hr'
          · exact absurd hid hr
          · exact ⟨r', hr', hid⟩)
      refine ⟨s', todo, hs', hwire, fun y hy => ?_, hrelay⟩
      rw [hother y hy, LinkState.procs_set, if_neg hy]

/-- So does a plain call that selects the relay. -/
theorem reach_sent (hcl : d.kind.clones = true → CloneMessage.tryClone d.msg = true)
    (hk : d.kind.isReq = false) (hs : SharedMessage.isShared d.msg = true)
    (hsel : (L x).relay ∈ d.kind.select (L x).bus (Message.typeTag d.msg))
    (hreach : (link c L).Reachable s) (hp : s.procs x = .calling (L x) { d with todo := none }) :
    ∃ (s' : LinkState S) (todo : List Receiver), (link c L).Reachable s' ∧ s'.wire = s.wire
      ∧ (∀ y, y ≠ x → s'.procs y = s.procs y)
      ∧ (s'.procs x).relay = .holding (L x) { d with todo := some todo } := by
  have hstart : (link c L).step s (x, .act (.start 0)) = some (s.set x (.calling (L x) { d with
      todo := some (d.kind.select (L x).bus (Message.typeTag d.msg)) })) := by
    show ((s.procs x).start (L x) 0).map (s.set x) = _
    rw [hp]
    rfl
  obtain ⟨s', todo, hs', hwire, hother, hrelay⟩ := reach_put hcl hk hs _ (hreach.step hstart)
    (by rw [LinkState.procs_set, if_pos rfl]) ⟨_, hsel, rfl⟩
  refine ⟨s', todo, hs', hwire, fun y hy => ?_, hrelay⟩
  rw [hother y hy, LinkState.procs_set, if_neg hy]

theorem reach_inited (c : Codec S) (L : Side → Endpoint) : ∃ s : LinkState S,
    (link c L).Reachable s ∧ s.wire = (fun _ => []) ∧ s.issued = 0
      ∧ ∀ y, s.procs y = .inited (L y) := by
  have h1 : (link c L).step .start (.left, .act .init)
      = some (LinkState.start.set .left (.inited (L .left))) := rfl
  have h2 : (link c L).step (LinkState.start.set .left (.inited (L .left))) (.right, .act .init)
      = some ((LinkState.start.set .left (.inited (L .left))).set .right (.inited (L .right))) :=
    rfl
  refine ⟨_, (Lts.Reachable.start.step h1).step h2, rfl, rfl, fun y => ?_⟩
  cases y <;> rfl

/-- A plain message of a user comes to the wire. -/
theorem reach_wire {msg : S} (ht : Travels c (L x) msg) :
    ∃ (s : LinkState S) (pkt : ProtocolPacket), (link c L).Reachable s
      ∧ s.wire x = [(pkt, 0)] ∧ s.procs x.other = .inited (L x.other)
      ∧ (ProtocolItem.send 0 msg false).serialize c .cbor [] = some (.ok pkt) := by
  obtain ⟨s, hs, hwire, hissued, hprocs⟩ := reach_inited c L
  obtain ⟨bytes, hbytes⟩ := ht.encoded
  obtain ⟨pkt, hpkt⟩ := ProtocolItem.serialize_of_encoded ht.shared hbytes 0 false
  have hcall : (link c L).step s (x, .call .send msg) = some { s.set x
      (.calling (L x) ⟨0, .send, msg, none, none⟩) with issued := s.issued + 1 } := by
    show some _ = _
    rw [hprocs, hissued]
    rfl
  obtain ⟨s', todo, hs', hwire', hother, hrelay⟩ := reach_sent (x := x)
    (d := ⟨0, .send, msg, none, none⟩) nofun rfl ht.shared (relay_mem_send ht.listed)
    (hs.step hcall) (by show (s.set x _).procs x = _; rw [LinkState.procs_set, if_pos rfl])
  have hwrite : (link c L).step s' (x, .write) = some { s'.set x { s'.procs x with
      relay.items := [] } with wire := Function.update s'.wire x (s'.wire x ++ [(pkt, 0)]) } := by
    show s'.write c x = _
    simp [LinkState.write, hrelay, TcpRelay.holding, Process.inited, TcpRelay.new, hpkt]
  refine ⟨_, pkt, hs'.step hwrite, ?_, ?_, hpkt⟩
  · show Function.update s'.wire x (s'.wire x ++ [(pkt, 0)]) x = _
    rw [Function.update_self, hwire']
    show s.wire x ++ _ = _
    rw [hwire]
    rfl
  · show (s'.set x _).procs x.other = _
    rw [LinkState.procs_set, if_neg x.other_ne, hother _ x.other_ne]
    show (s.set x _).procs x.other = _
    rw [LinkState.procs_set, if_neg x.other_ne, hprocs]

/-- Where the pair is not quiet a message comes back. -/
theorem exists_echo (hc : c.Faithful) {msg : S} (ht : Travels c (L x) msg)
    (hclone : CloneMessage.tryClone msg = true)
    (ha : (L x.other).inTable.acceptMessage (Message.typeTag msg) = true) :
    ∃ s, (link c L).Reachable s ∧ ¬ NoEcho s := by
  obtain ⟨s, pkt, hs, hwire, hp, hpkt⟩ := reach_wire ht
  have hread : (link c L).step s (x.other, .read) = some { s.set x.other (.calling (L x.other)
      ⟨0, .sendBoxed .broadcast, msg, some 0, none⟩) with
        wire := Function.update s.wire x [] } := by
    show s.read c L x.other = _
    have hr : (Process.inited (L x.other)).read c (L x.other) pkt 0
        = .calling (L x.other) ⟨0, .sendBoxed .broadcast, msg, some 0, none⟩ := by
      unfold Process.read
      rw [ProtocolItem.deserialize_serialize hc hpkt]
      rfl
    rw [LinkState.read, hp, Side.other_other, hwire]
    show some { s.set x.other ((Process.inited (L x.other)).read c (L x.other) pkt 0) with
      wire := Function.update s.wire x [] } = _
    rw [hr]
  obtain ⟨s', todo, hs', -, -, hrelay⟩ := reach_sent (x := x.other)
    (d := ⟨0, .sendBoxed .broadcast, msg, some 0, none⟩) (fun _ => hclone) rfl ht.shared
    (relay_mem_sendBoxed ha) (hs.step hread)
    (by show (s.set x.other _).procs x.other = _; rw [LinkState.procs_set, if_pos rfl])
  refine ⟨s', hs', fun hn => ?_⟩
  have := hn.1 x.other _ (by rw [hrelay]; exact List.mem_singleton_self _)
  cases this

end Loud

/-- Over a pair of buses no message ever goes back, and each call is sent once at most, exactly
where the tables are quiet. -/
theorem noEcho_iff_quiet (hc : c.Faithful) (L : Side → Endpoint) :
    (∀ s, (link c L).Reachable s → NoEcho s) ↔ Quiet c L := by
  refine ⟨fun h x msg ht hclone => ?_, fun hq s hs => noEcho_of_quiet hc hq hs⟩
  by_contra ha
  obtain ⟨s, hs, hn⟩ := exists_echo hc ht hclone (by simpa using ha)
  exact hn (h s hs)

/-- The left relay sends messages of the type `Flag`, the right one none. -/
def oneWay : Side → Endpoint
  | .left => .flag
  | .right => .alone .empty

theorem noEcho_oneWay : Quiet Flag.codec oneWay
    ∧ ∀ s, (link Flag.codec oneWay).Reachable s → NoEcho s := by
  have hq : Quiet Flag.codec oneWay := by
    intro x msg ht _
    cases x with
    | left => rfl
    | right =>
      obtain ⟨ty, hty, -⟩ := ht.listed
      cases hty
  exact ⟨hq, (noEcho_iff_quiet Flag.codec_faithful oneWay).2 hq⟩

/-- Where both relays send messages of the type `Flag`, one that the left bus sends is put on the
right relay's item channel. -/
theorem plain_message_echoes :
    ¬ ∀ s, (link Flag.codec fun _ => .flag).Reachable s → NoEcho s := by
  have ht : Travels Flag.codec .flag (⟨true⟩ : Flag) :=
    ⟨rfl, ⟨_, rfl⟩, _, List.mem_singleton_self _, rfl⟩
  obtain ⟨s, hs, hn⟩ := exists_echo (L := fun _ => .flag) (x := .left) Flag.codec_faithful ht rfl
    rfl
  exact fun h => hn (h s hs)

end MessageBus
