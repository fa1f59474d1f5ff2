import MessageBus.Lib.Pool
import MessageBus.Proofs.CallSelect
import MessageBus.Proofs.Link

/-!
# Where no message goes back

A request frame is dispatched to all receivers but the relay, a plain one to all that accept it. On
a `Quiet` pair of buses no plain message comes to a relay that accepts it as one. `tally` counts
for each call the messages it has put on an item channel and those it may still put there: no step
raises it but the call itself, which raises it to one.
-/

namespace MessageBus

section Tally

variable {S : Type} {p p' : Process S}

/-- A call of a user that may still put its message on the item channel. -/
def Call.pending (e : Endpoint) (d : Call S) : Bool :=
  d.frame.isNone && match d.todo with
    | none => true
    | some l => l.any (·.id == e.relayId)

/-- The messages of call `k` that a process has put on its item channel or may still put there. -/
def Process.tally (e : Endpoint) (p : Process S) (k : ℕ) : ℕ :=
  p.relay.sent.countP (·.origin == k) + p.calls.countP fun d => d.pending e && d.origin == k

theorem tally_of_keeps {e : Endpoint} (hk : Process.Keeps e p p') (k : ℕ) :
    p'.tally e k = p.tally e k := by
  obtain ⟨hr, hc⟩ := hk
  unfold Process.tally
  rw [hr.sent, hc]

theorem tally_set_call {e : Endpoint} {i : ℕ} {d d' : Call S} (hi : p.calls[i]? = some d)
    (ho : d'.origin = d.origin) (hp : d'.pending e = true → d.pending e = true) (k : ℕ) :
    Process.tally e { p with calls := p.calls.set i d' } k ≤ p.tally e k := by
  have := Pool.countP_set_add (q := fun d => d.pending e && d.origin == k) (b := d') hi
  unfold Process.tally
  dsimp only at this ⊢
  rw [ho] at this
  by_cases hd : d'.pending e = true
  · rw [hp hd, hd] at this
    omega
  · simp only [hd, Bool.false_and, Bool.false_eq_true, if_false] at this
    omega

theorem tally_erase_call (e : Endpoint) (p : Process S) (i k : ℕ) :
    Process.tally e { p with calls := p.calls.eraseIdx i } k ≤ p.tally e k :=
  Nat.add_le_add_left (List.Sublist.countP_le (List.eraseIdx_sublist _ _)) _

theorem pending_tail {e : Endpoint} {d : Call S} {r : Receiver} {l : List Receiver}
    (hl : d.todo = some (r :: l))
    (h : ({ d with todo := some l } : Call S).pending e = true) : d.pending e = true := by
  simp only [Call.pending, Bool.and_eq_true, hl, List.any_cons] at h ⊢
  exact ⟨h.1, by rw [h.2, Bool.or_true]⟩

end Tally

variable {S : Type} [CloneMessage S] {c : Codec S} {L : Side → Endpoint}

/-- A plain message that the relay of a bus can be sent and can write. -/
structure Travels (c : Codec S) (e : Endpoint) (msg : S) : Prop where
  shared : SharedMessage.isShared msg = true
  encoded : ∃ bytes, c.encode .cbor msg = .ok bytes
  listed : e.inTable.Lists (Message.typeTag msg)

/-- No plain message that travels and can be cloned has a tag that the other side's table lists as a
plain message. -/
def Quiet (c : Codec S) (L : Side → Endpoint) : Prop :=
  ∀ x msg, Travels c (L x) msg → CloneMessage.tryClone msg = true →
    (L x.other).inTable.acceptMessage (Message.typeTag msg) = false

/-- Nothing that came in a frame is on an item channel again, and each call has put one message
there at most. -/
def NoEcho (s : LinkState S) : Prop :=
  (∀ x, ∀ d ∈ (s.procs x).relay.sent, d.frame = none) ∧
    (((s.procs .left).relay.sent ++ (s.procs .right).relay.sent).map (·.origin)).Nodup

section Sound

structure Call.Sound (c : Codec S) (L : Side → Endpoint) (x : Side) (d : Call S) : Prop where
  served : d.frame ≠ none → d.kind = .request (.except (L x).relayId) none none
    ∨ d.kind = .sendBoxed .broadcast ∧ Travels c (L x.other) d.msg
  todo : ∀ l, d.todo = some l → (∀ r ∈ l, r ∈ d.kind.select (L x).bus (Message.typeTag d.msg))
    ∧ (l.map (·.id)).Nodup

def Outgoing.Sound (e : Endpoint) (o : Outgoing S) : Prop :=
  ∀ mid msg, o.1 = some (.send mid msg false) → e.inTable.Lists (Message.typeTag msg)

/-- A packet on the wire is an item that the writer of its side could take. -/
def Written (c : Codec S) (e : Endpoint) (pkt : ProtocolPacket × ℕ) : Prop :=
  ∃ item : ProtocolItem S, item.serialize c .cbor [] = some (.ok pkt.1)
    ∧ Outgoing.Sound e (some item, pkt.2)

structure ProcInv (c : Codec S) (L : Side → Endpoint) (x : Side) (p : Process S) : Prop where
  selfId : p.relay.started = true → p.relay.selfId = (L x).relayId
  items : ∀ o ∈ p.relay.items, Outgoing.Sound (L x) o
  calls : ∀ d ∈ p.calls, d.Sound c L x
  sent : ∀ d ∈ p.relay.sent, d.frame = none

/-- A process is sound, and no call counts for more than in the process it was. -/
def Onward (c : Codec S) (L : Side → Endpoint) (x : Side) (p p' : Process S) : Prop :=
  ProcInv c L x p' ∧ ∀ k, p'.tally (L x) k ≤ p.tally (L x) k

variable {x : Side} {p p' : Process S}

theorem ProcInv.of_keeps (h : ProcInv c L x p) (hk : Process.Keeps (L x) p p') :
    ProcInv c L x p' := by
  obtain ⟨hr, hc⟩ := hk
  refine ⟨hr.selfId h.selfId, fun o ho => ?_, ?_, ?_⟩
  · rcases hr.items o ho with ho | ho
    · exact h.items o ho
    · exact fun mid msg hm => absurd hm (ho mid msg)
  · rw [hc]
    exact h.calls
  · rw [hr.sent]
    exact h.sent

theorem ProcInv.onward (h : ProcInv c L x p) (hk : Process.Keeps (L x) p p') :
    Onward c L x p p' :=
  ⟨h.of_keeps hk, fun k => Nat.le_of_eq (tally_of_keeps hk k)⟩

theorem ProcInv.take_items (h : ProcInv c L x p) (items : List (Outgoing S)) (rx : Bool)
    (hi : ∀ o ∈ items, o ∈ p.relay.items) :
    Onward c L x p { p with relay.items := items, relay.rx := rx } :=
  ⟨⟨h.selfId, fun o ho => h.items o (hi o ho), h.calls, h.sent⟩, fun _ => Nat.le_refl _⟩

theorem Call.Sound.set_todo {d : Call S} {l : List Receiver} (h : d.Sound c L x)
    (hl : ∀ r ∈ l, r ∈ d.kind.select (L x).bus (Message.typeTag d.msg))
    (hn : (l.map (·.id)).Nodup) : ({ d with todo := some l } : Call S).Sound c L x where
  served := h.served
  todo l' hl' := by
    cases hl'
    exact ⟨hl, hn⟩

theorem ProcInv.set_call (h : ProcInv c L x p) {i : ℕ} {d : Call S} (hd : d.Sound c L x) :
    ProcInv c L x { p with calls := p.calls.set i d } where
  selfId := h.selfId
  items := h.items
  sent := h.sent
  calls d' hd' := by
    rcases List.mem_or_eq_of_mem_set hd' with hd' | rfl
    · exact h.calls d' hd'
    · exact hd

theorem ProcInv.erase_call (h : ProcInv c L x p) (i : ℕ) :
    ProcInv c L x { p with calls := p.calls.eraseIdx i } where
  selfId := h.selfId
  items := h.items
  sent := h.sent
  calls d hd := h.calls d (List.mem_of_mem_eraseIdx hd)

theorem Call.Sound.tail {d : Call S} {r : Receiver} {l : List Receiver} (h : d.Sound c L x)
    (hl : d.todo = some (r :: l)) : ({ d with todo := some l } : Call S).Sound c L x := by
  obtain ⟨hmem, hn⟩ := h.todo _ hl
  rw [List.map_cons, List.nodup_cons] at hn
  exact h.set_todo (fun r hr => hmem r (List.mem_cons_of_mem _ hr)) hn.2

/-- A call that comes to the relay is a user's: a request frame is not sent there, and a plain one
is not by `Quiet`. -/
theorem Call.Sound.frame_eq_none {d : Call S} {r : Receiver} {l : List Receiver} (hq : Quiet c L)
    (h : d.Sound c L x) (hl : d.todo = some (r :: l)) (hr : r.id = (L x).relayId)
    (hc : d.kind.clones = true → CloneMessage.tryClone d.msg = true) : d.frame = none := by
  by_contra hf
  have hsel := (h.todo _ hl).1 r List.mem_cons_self
  rcases h.served hf with hk | ⟨hk, ht⟩
  · rw [hk] at hsel
    exact ne_relay_of_except hsel hr
  · rw [hk] at hsel hc
    have := hq x.other d.msg ht (hc rfl)
    rw [Side.other_other, acceptMessage_of_select hsel hr] at this
    cases this

theorem sendMsg_cases (r : TcpRelay S) (mid : UInt64) (d : Call S) : r.sendMsg mid d = r
    ∨ SharedMessage.isShared d.msg = true ∧ r.sendMsg mid d = { r with
        items := r.items ++ [(some (.send mid d.msg d.kind.isReq), d.origin)]
        sent := r.sent ++ [d] } := by
  unfold TcpRelay.sendMsg
  split_ifs with hs
  · split
    · rename_i r' hr'
      rw [TcpRelay.sendItem_eq hr']
      exact .inr ⟨hs, rfl⟩
    · exact .inl rfl
  · exact .inl rfl

/-- A call of a user that sends to the relay will not send there again. -/
theorem procInv_put (hq : Quiet c L) (h : ProcInv c L x p) {i : ℕ} {d : Call S} {r : Receiver}
    {todo : List Receiver} (hi : p.calls[i]? = some d) (hd : d.todo = some (r :: todo))
    (hc : d.kind.clones = true → CloneMessage.tryClone d.msg = true) (hr : r.id = (L x).relayId)
    (wrapper : RelayWrapper) (mid : UInt64) :
    Onward c L x p { p with
      wrapper
      relay := p.relay.sendMsg mid { d with todo := some todo }
      calls := p.calls.set i { d with todo := some todo } } := by
  have hsound := h.calls d (List.mem_of_getElem? hi)
  have hset := h.set_call (i := i) (hsound.tail hd)
  rcases sendMsg_cases p.relay mid { d with todo := some todo } with hm | ⟨hsh, hm⟩
  · rw [hm]
    exact ⟨⟨hset.selfId, hset.items, hset.calls, hset.sent⟩,
      tally_set_call hi rfl (pending_tail hd)⟩
  · rw [hm]
    have hsel := (hsound.todo _ hd).1 r List.mem_cons_self
    have hframe := hsound.frame_eq_none hq hd hr hc
    refine ⟨⟨hset.selfId, ?_, hset.calls, ?_⟩, fun k => ?_⟩
    · intro o ho
      rcases List.mem_append.1 ho with ho | ho
      · exact h.items o ho
      · rw [List.mem_singleton] at ho
        subst ho
        intro mid msg hmsg
        simp only [Option.some.injEq, ProtocolItem.send.injEq] at hmsg
        obtain ⟨-, rfl, hk⟩ := hmsg
        obtain ⟨hrec, hlist⟩ := lists_of_select hk hsel
        rw [(L x).eq_relay hrec hr] at hlist
        exact hlist
    · intro d' hd'
      rcases List.mem_append.1 hd' with hd' | hd'
      · exact h.sent d' hd'
      · rw [List.mem_singleton] at hd'
        rw [hd']
        exact hframe
    · have hnodup := (hsound.todo _ hd).2
      rw [List.map_cons, List.nodup_cons] at hnodup
      have hpend : d.pending (L x) = true := by
        simp [Call.pending, hframe, hd, hr]
      have hdone : ({ d with todo := some todo } : Call S).pending (L x) = false := by
        simp only [Call.pending, Bool.and_eq_false_iff, List.any_eq_false, beq_iff_eq]
        refine .inr fun r' hr' hid => hnodup.1 ?_
        exact List.mem_map.2 ⟨r', hr', hid.trans hr.symm⟩
      have := Pool.countP_set_add (q := fun d => d.pending (L x) && d.origin == k)
        (b := { d with todo := some todo }) hi
      simp only [hpend, hdone, Bool.true_and, Bool.false_and, Bool.false_eq_true, if_false] at this
      unfold Process.tally
      simp only [List.countP_append, List.countP_singleton]
      omega

theorem procInv_act (hq : Quiet c L) (h : ProcInv c L x p) {l : ProcLabel S}
    (hs : p.act (L x) l = some p') : Onward c L x p p' := by
  cases Process.move hs with
  | @start i d todo hi hd htodo =>
    have hsound := h.calls d (List.mem_of_getElem? hi)
    refine ⟨h.set_call ?_, tally_set_call hi rfl ?_⟩
    · rcases htodo with rfl | rfl
      · exact hsound.set_todo (fun _ => nofun) List.nodup_nil
      · exact hsound.set_todo (fun _ => id) (nodup_select _ _ _)
    · simp only [Call.pending, hd, Bool.and_eq_true, and_true]
      exact And.left
  | panic => exact ⟨h.erase_call _, tally_erase_call _ _ _⟩
  | put wrapper mid hi hd hc hr => exact procInv_put hq h hi hd hc hr wrapper mid
  | pass hi hd =>
    have hsound := h.calls _ (List.mem_of_getElem? hi)
    exact ⟨h.set_call (hsound.tail hd), tally_set_call hi rfl (pending_tail hd)⟩
  | @finish i res relay hr =>
    have hk : Process.Keeps (L x) { p with calls := p.calls.eraseIdx i }
        { p with calls := p.calls.eraseIdx i, relay } := ⟨hr, rfl⟩
    refine ⟨(h.erase_call i).of_keeps hk, fun k => ?_⟩
    rw [tally_of_keeps hk]
    exact tally_erase_call _ _ _ _
  | visit hv => exact h.onward (Process.keeps_visit hv)
  | resume => exact h.onward (.refl p)
  | init hr => exact h.onward ⟨hr, rfl⟩
  | closeRelay hr => exact h.onward ⟨hr, rfl⟩
  | halt => exact h.onward ⟨TcpRelay.keeps_halt p.relay, rfl⟩
  | @callerAwait round relay n hr hn =>
    rcases round with _ | _ <;> exact h.onward ⟨hr, rfl⟩
  | callerPanic => exact h.onward (.refl p)
  | callerCancel => exact h.onward (Process.keeps_setNotify p _ _)
  | closeBus => exact h.onward (.refl p)
  | exit => exact h.onward (.refl p)

theorem procInv_read (hc : c.Faithful) (h : ProcInv c L x p) {pkt : ProtocolPacket} {origin : ℕ}
    (hw : Written c (L x.other) (pkt, origin)) (hst : p.relay.started = true) :
    Onward c L x p (p.read c (L x) pkt origin) := by
  obtain ⟨item, hser, hsound⟩ := hw
  have hdes := ProtocolItem.deserialize_serialize hc hser
  unfold Process.read
  rw [hdes]
  rcases hitem : item.arrived with _ | ev | a | ⟨mid, msg, req⟩
  · exact h.onward (.refl p)
  · exact h.onward (Process.keeps_handle p ev)
  · cases a with
    | close => exact h.onward (Process.keeps_answer (Outgoing.noPlain_event _ 0))
    | _ => exact h.onward (.refl p)
  · obtain rfl := ProtocolItem.arrived_eq_send hitem
    obtain ⟨hsh, henc⟩ := ProtocolItem.encoded_of_serialize hser
    refine ⟨⟨h.selfId, h.items, fun d hd => ?_, h.sent⟩, fun k => ?_⟩
    · rcases List.mem_append.1 hd with hd | hd
      · exact h.calls d hd
      · rw [List.mem_singleton] at hd
        subst hd
        refine ⟨fun _ => ?_, fun l hl => by cases hl⟩
        cases req with
        | true =>
          refine .inl ?_
          show CallKind.request (.except p.relay.selfId) none none = _
          rw [h.selfId hst]
        | false => exact .inr ⟨rfl, hsh, henc, hsound mid msg rfl⟩
    · unfold Process.tally
      simp only [List.countP_append, List.countP_singleton, Process.dispatch, Call.pending,
        Option.isNone_some, Bool.false_and, Bool.false_eq_true, if_false]
      omega

end Sound

section System

def LinkState.tally (L : Side → Endpoint) (s : LinkState S) (k : ℕ) : ℕ :=
  (s.procs .left).tally (L .left) k + (s.procs .right).tally (L .right) k

structure LinkInv (c : Codec S) (L : Side → Endpoint) (s : LinkState S) : Prop where
  procs : ∀ x, ProcInv c L x (s.procs x)
  wire : ∀ x, ∀ pkt ∈ s.wire x, Written c (L x) pkt
  once : ∀ k, s.tally L k ≤ 1
  fresh : ∀ k, s.issued ≤ k → s.tally L k = 0

variable {s s' : LinkState S} {x : Side}

omit [CloneMessage S] in
theorem tally_move {t : LinkState S} {p : Process S} (ht : t.procs = (s.set x p).procs) (k : ℕ) :
    t.tally L k + (s.procs x).tally (L x) k = s.tally L k + p.tally (L x) k := by
  unfold LinkState.tally
  rw [ht, LinkState.procs_set, LinkState.procs_set]
  cases x
  · rw [if_pos rfl, if_neg nofun]
    omega
  · rw [if_neg nofun, if_pos rfl]
    omega

/-- A process that moves on with a sound process and no call more keeps the invariant. -/
theorem LinkInv.move (h : LinkInv c L s) {t : LinkState S} {p : Process S}
    (ht : t.procs = (s.set x p).procs) (hi : t.issued = s.issued)
    (hp : Onward c L x (s.procs x) p)
    (hw : ∀ y, ∀ pkt ∈ t.wire y, Written c (L y) pkt) : LinkInv c L t where
  procs y := by
    rw [ht]
    exact LinkState.forall_set h.procs hp.1 y
  wire := hw
  once k := by
    have := tally_move (L := L) ht k
    have := hp.2 k
    have := h.once k
    omega
  fresh k hk := by
    have := tally_move (L := L) ht k
    have := hp.2 k
    have := h.fresh k (hi ▸ hk)
    omega

omit [CloneMessage S] in
theorem mem_wire_update {P : Side → ProtocolPacket × ℕ → Prop} {w : List (ProtocolPacket × ℕ)}
    (h : ∀ y, ∀ pkt ∈ s.wire y, P y pkt) (hw : ∀ pkt ∈ w, P x pkt) (y : Side) :
    ∀ pkt ∈ Function.update s.wire x w y, P y pkt := by
  rw [Function.update_apply]
  split_ifs with hy
  · exact hy ▸ hw
  · exact h y

/-- A new call, under an id that counts for none, counts for one. -/
theorem LinkInv.call (h : LinkInv c L s) {kind : CallKind} {msg : S}
    (hs : s.step c L x (.call kind msg) = some s') : LinkInv c L s' := by
  have hprocs : s'.procs = (s.set x { s.procs x with
      calls := (s.procs x).calls ++ [⟨s.issued, kind, msg, none, none⟩] }).procs := by
    cases hs
    rfl
  have hwire : s'.wire = s.wire := by
    cases hs
    rfl
  have hissued : s'.issued = s.issued + 1 := by
    cases hs
    rfl
  have hp := h.procs x
  have htally : ∀ k, s'.tally L k = s.tally L k + if s.issued = k then 1 else 0 := by
    intro k
    have := tally_move (L := L) hprocs k
    have hcalls : Process.tally (L x) { s.procs x with
        calls := (s.procs x).calls ++ [⟨s.issued, kind, msg, none, none⟩] } k
          = (s.procs x).tally (L x) k + if s.issued = k then 1 else 0 := by
      unfold Process.tally
      simp only [List.countP_append, List.countP_singleton, Call.pending, Option.isNone_none,
        Bool.true_and, Bool.and_true, beq_iff_eq]
      omega
    omega
  refine ⟨fun y => ?_, hwire ▸ h.wire, fun k => ?_, fun k hk => ?_⟩
  · rw [hprocs]
    refine LinkState.forall_set (P := ProcInv c L) h.procs ?_ y
    refine ⟨hp.selfId, hp.items, fun d hd => ?_, hp.sent⟩
    rcases List.mem_append.1 hd with hd | hd
    · exact hp.calls d hd
    · rw [List.mem_singleton] at hd
      subst hd
      exact ⟨fun hf => absurd rfl hf, fun l hl => by cases hl⟩
  · rw [htally]
    by_cases hk : s.issued = k
    · rw [if_pos hk, h.fresh k (Nat.le_of_eq hk)]
    · rw [if_neg hk]
      exact h.once k
  · rw [htally, h.fresh k (by omega), if_neg (by omega)]

theorem linkInv_step (hc : c.Faithful) (hq : Quiet c L) {l : Side × LinkLabel S}
    (h : LinkInv c L s) (hs : (link c L).step s l = some s') : LinkInv c L s' := by
  obtain ⟨x, l⟩ := l
  change s.step c L x l = some s' at hs
  cases l with
  | call kind msg => exact h.call hs
  | act l =>
    obtain ⟨p, hp, rfl⟩ := Option.map_eq_some_iff.1 hs
    exact h.move rfl rfl (procInv_act hq (h.procs x) hp) h.wire
  | write =>
    rcases LinkState.write_cases hs with ⟨items, rx, hitems, rfl⟩ |
      ⟨item, origin, items, pkt, hitems, hser, rfl⟩
    · refine h.move rfl rfl ((h.procs x).take_items items rx fun o ho => ?_) h.wire
      rcases hitems with rfl | ⟨o', ho'⟩
      · cases ho
      · rw [ho']
        exact List.mem_cons_of_mem _ ho
    · have htail := (h.procs x).take_items items (s.procs x).relay.rx fun o ho => by
        rw [hitems]
        exact List.mem_cons_of_mem _ ho
      refine h.move rfl rfl htail (mem_wire_update h.wire fun pkt' hp => ?_)
      rcases List.mem_append.1 hp with hp | hp
      · exact h.wire x pkt' hp
      · rw [List.mem_singleton] at hp
        subst hp
        refine ⟨item, hser, (h.procs x).items (some item, origin) ?_⟩
        rw [hitems]
        exact List.mem_cons_self
  | read =>
    obtain ⟨pkt, origin, rest, hst, -, hw, rfl⟩ := LinkState.read_cases hs
    have hhead := h.wire x.other
    rw [hw] at hhead
    exact h.move rfl rfl (procInv_read hc (h.procs x) (hhead _ List.mem_cons_self) hst)
      (mem_wire_update h.wire fun pkt hp => hhead pkt (List.mem_cons_of_mem _ hp))
  | lose n =>
    cases hs
    exact ⟨h.procs, mem_wire_update h.wire fun pkt hp => h.wire x pkt (List.mem_of_mem_take hp),
      h.once, h.fresh⟩

theorem linkInv_start : LinkInv c L LinkState.start where
  procs _ := ⟨nofun, fun _ => nofun, fun _ => nofun, fun _ => nofun⟩
  wire _ := fun _ => nofun
  once _ := Nat.zero_le 1
  fresh _ _ := rfl

theorem LinkInv.noEcho (h : LinkInv c L s) : NoEcho s := by
  refine ⟨fun x => (h.procs x).sent, List.nodup_iff_count_le_one.2 fun k => ?_⟩
  have := h.once k
  unfold LinkState.tally Process.tally at this
  rw [List.count_eq_countP, List.countP_map, List.countP_append]
  simp only [Function.comp_def]
  omega

/-- In no run of a quiet pair of buses does a message go back. -/
theorem noEcho_of_quiet (hc : c.Faithful) (hq : Quiet c L) (h : (link c L).Reachable s) :
    NoEcho s :=
  (Lts.invariant linkInv_start (fun _ _ _ h hs => linkInv_step hc hq h hs) h).noEcho

end System

end MessageBus
