import MessageBus.Link
import MessageBus.Proofs.RoundTrip

/-!
# What a step of a process does

`Move` has a case for each way a process can move on (`move`). Most of them leave its messages alone
(`Keeps`): they touch neither the calls nor, but for items that are no plain messages, the item
channel.
-/

namespace MessageBus

section Keeps

variable {S : Type} {e : Endpoint}

/-- The item is no plain message. -/
def Outgoing.NoPlain (o : Outgoing S) : Prop := ∀ mid msg, o.1 ≠ some (.send mid msg false)

theorem Outgoing.noPlain_event (ev : Event S GenericError) (origin : ℕ) :
    Outgoing.NoPlain (some (.event ev), origin) := by
  rintro mid msg ⟨⟩

theorem Outgoing.noPlain_action (a : Action) (origin : ℕ) :
    Outgoing.NoPlain (S := S) (some (.action a), origin) := by
  rintro mid msg ⟨⟩

theorem Outgoing.noPlain_none (origin : ℕ) : Outgoing.NoPlain (S := S) (none, origin) := by
  rintro mid msg ⟨⟩

/-- What leaves the messages of a relay alone. -/
structure TcpRelay.Keeps (e : Endpoint) (r r' : TcpRelay S) : Prop where
  selfId : (r.started = true → r.selfId = e.relayId) → r'.started = true → r'.selfId = e.relayId
  sent : r'.sent = r.sent
  items : ∀ o ∈ r'.items, o ∈ r.items ∨ Outgoing.NoPlain o

namespace TcpRelay

theorem Keeps.refl (r : TcpRelay S) : Keeps e r r := ⟨id, rfl, fun _ => .inl⟩

theorem Keeps.append {r : TcpRelay S} {o : Outgoing S} (ho : o.NoPlain) (exited : Bool) :
    Keeps e r { r with items := r.items ++ [o], exited } := by
  refine ⟨id, rfl, fun o' ho' => ?_⟩
  rcases List.mem_append.1 ho' with h | h
  · exact .inl h
  · rw [List.mem_singleton] at h
    exact .inr (h ▸ ho)

theorem sendItem_eq {r r' : TcpRelay S} {item : Option (ProtocolItem S)} {origin : ℕ}
    (h : r.sendItem item origin = some r') :
    r' = { r with items := r.items ++ [(item, origin)] } := by
  unfold sendItem at h
  split_ifs at h
  cases h
  rfl

theorem keeps_sendItem {r r' : TcpRelay S} {item : Option (ProtocolItem S)} {origin : ℕ}
    (hi : Outgoing.NoPlain (item, origin)) (h : r.sendItem item origin = some r') :
    Keeps e r r' := by
  rw [sendItem_eq h]
  exact Keeps.append hi r.exited

theorem keeps_sendAction {r r' : TcpRelay S} {a : Action} (ha : ∀ id, a = .init id → id = e.relayId)
    (h : r.sendAction a = some r') : Keeps e r r' := by
  cases a with
  | init id =>
    cases h
    split_ifs
    · exact Keeps.refl r
    · exact ⟨fun _ _ => ha id rfl, rfl, fun _ => .inl⟩
  | close =>
    obtain ⟨q, hq, rfl⟩ := Option.map_eq_some_iff.1 h
    rw [sendItem_eq hq]
    exact Keeps.append (Outgoing.noPlain_none 0) true
  | _ => exact keeps_sendItem (Outgoing.noPlain_action _ 0) h

theorem keeps_halt (r : TcpRelay S) : Keeps e r r.halt := ⟨id, rfl, fun _ => nofun⟩

end TcpRelay

namespace Process

/-- What leaves the messages of a process alone. -/
def Keeps (e : Endpoint) (p p' : Process S) : Prop :=
  TcpRelay.Keeps e p.relay p'.relay ∧ p'.calls = p.calls

variable {p p' : Process S}

theorem Keeps.refl (p : Process S) : Keeps e p p := ⟨.refl _, rfl⟩

theorem Keeps.of_eq (hr : p'.relay = p.relay) (hc : p'.calls = p.calls) : Keeps e p p' :=
  ⟨hr ▸ .refl _, hc⟩

theorem ring_same (p : Process S) (w : RelayWake) : (p.ring w).relay = p.relay
    ∧ (p.ring w).calls = p.calls ∧ (p.ring w).wrapper = p.wrapper := by
  unfold ring wake
  split
  · split_ifs <;> exact ⟨rfl, rfl, rfl⟩
  · split_ifs <;> exact ⟨rfl, rfl, rfl⟩
  · exact ⟨rfl, rfl, rfl⟩

/-- A turn of the event loop is that of the relay's state and then its notifications. -/
theorem handle_rings [Message S] {P : Process S → Prop} (p : Process S) (ev : Event S GenericError)
    (h : P { p with
      wrapper := (p.wrapper.handleEvent p.chans ev).wrapper
      chans := (p.wrapper.handleEvent p.chans ev).chans })
    (hring : ∀ q w, P q → P (q.ring w)) : ∃ q, P q ∧ p.handle ev
      = if (p.wrapper.handleEvent p.chans ev).loop = .running then q
        else { q with inbound := .ended } :=
  ⟨_, List.foldlRecOn (p.wrapper.handleEvent p.chans ev).wakes ring h fun q hq w _ => hring q w hq,
    rfl⟩

theorem handle_same [Message S] (p : Process S) (ev : Event S GenericError) :
    (p.handle ev).relay = p.relay ∧ (p.handle ev).calls = p.calls
      ∧ (p.handle ev).wrapper = (p.wrapper.handleEvent p.chans ev).wrapper := by
  obtain ⟨q, hq, heq⟩ := handle_rings (P := fun q => q.relay = p.relay ∧ q.calls = p.calls
    ∧ q.wrapper = (p.wrapper.handleEvent p.chans ev).wrapper) p ev ⟨rfl, rfl, rfl⟩ fun q w hq => by
      obtain ⟨hrelay, hcalls, hwrapper⟩ := ring_same q w
      exact ⟨hrelay.trans hq.1, hcalls.trans hq.2.1, hwrapper.trans hq.2.2⟩
  rw [heq]
  split_ifs
  · exact hq
  · exact hq

theorem keeps_handle [Message S] (p : Process S) (ev : Event S GenericError) :
    Keeps e p (p.handle ev) :=
  Keeps.of_eq (handle_same p ev).1 (handle_same p ev).2.1

theorem keeps_answer {item : ProtocolItem S} (hi : Outgoing.NoPlain (some item, 0)) :
    Keeps e p (p.answer item) := by
  unfold answer
  split
  · rename_i h
    exact ⟨TcpRelay.keeps_sendItem hi h, rfl⟩
  · exact Keeps.refl p

@[simp] theorem relay_setNotify (p : Process S) (n : Notify Sleeper) (round : Round) :
    (p.setNotify n round).relay = p.relay := by
  cases round <;> rfl

@[simp] theorem calls_setNotify (p : Process S) (n : Notify Sleeper) (round : Round) :
    (p.setNotify n round).calls = p.calls := by
  cases round <;> rfl

@[simp] theorem inbound_setNotify (p : Process S) (n : Notify Sleeper) (round : Round) :
    (p.setNotify n round).inbound = p.inbound := by
  cases round <;> rfl

theorem keeps_setNotify (p : Process S) (n : Notify Sleeper) (round : Round) :
    Keeps e p (p.setNotify n round) :=
  Keeps.of_eq (relay_setNotify p n round) (calls_setNotify p n round)

theorem keeps_finishRound (p : Process S) (round : Round) : Keeps e p (p.finishRound e round) := by
  unfold finishRound
  split
  · split_ifs
    · exact Keeps.refl p
    · exact keeps_answer (Outgoing.noPlain_event _ 0)
  · exact keeps_answer (Outgoing.noPlain_event _ 0)

theorem keeps_sendAction {round : Round} {relay : TcpRelay S}
    (h : p.relay.sendAction round.action = some relay) : TcpRelay.Keeps e p.relay relay :=
  TcpRelay.keeps_sendAction (by rintro id hid; cases round <;> cases hid) h

theorem keeps_visit {need : Bool} (h : p.visit e need = some p') : Keeps e p p' := by
  unfold visit at h
  split at h
  · cases h
    exact keeps_finishRound p _
  · rename_i round r todo hin
    cases h
    split_ifs
    · unfold visitRelay
      split_ifs
      · split
        · rename_i relay ha
          rcases round with _ | _ <;> exact ⟨keeps_sendAction ha, rfl⟩
        · exact Keeps.refl p
      · exact Keeps.refl p
    · exact Keeps.refl p
    · exact Keeps.refl p
  · cases h

theorem listen_eq {c : Call S} {key : Slab.Key} (h : p.listen c key = some p') :
    ∃ wrapper, p' = { p with wrapper } := by
  unfold listen at h
  split_ifs at h
  · obtain ⟨waiters, -, rfl⟩ := Option.map_eq_some_iff.1 h
    exact ⟨_, rfl⟩
  · cases h
    exact ⟨_, rfl⟩

theorem noPlain_answerItem [SharedMessage S] {kind : CallKind} {msg : S}
    {res : Except (Error Unit GenericError) S} {mid : UInt64} {item : ProtocolItem S}
    (h : answerItem kind msg res mid = some item) (origin : ℕ) :
    Outgoing.NoPlain (some item, origin) := by
  unfold answerItem at h
  split_ifs at h
  · split at h
    · split_ifs at h
      cases h
      exact Outgoing.noPlain_event _ _
    · cases h
      exact Outgoing.noPlain_event _ _
  · cases h
    exact Outgoing.noPlain_event _ _

variable [CloneMessage S]

/-- How a process moves on. -/
inductive Move (e : Endpoint) (p : Process S) : ProcLabel S → Process S → Prop
  | start {i : ℕ} {c : Call S} {todo : List Receiver} (hi : p.calls[i]? = some c)
      (hc : c.todo = none)
      (htodo : todo = [] ∨ todo = c.kind.select e.bus (Message.typeTag c.msg)) :
      Move e p (.start i) { p with calls := p.calls.set i { c with todo := some todo } }
  /-- The clone of a message fails, or the relay does not implement the request. -/
  | panic {i : ℕ} {key : Slab.Key} {mid : UInt64} :
      Move e p (.deliver i key mid) { p with calls := p.calls.eraseIdx i }
  /-- A call sends to the relay. -/
  | put {i : ℕ} {key : Slab.Key} {mid : UInt64} {c : Call S} {r : Receiver} {todo : List Receiver}
      (wrapper : RelayWrapper) (mid' : UInt64) (hi : p.calls[i]? = some c)
      (hc : c.todo = some (r :: todo))
      (hclone : c.kind.clones = true → CloneMessage.tryClone c.msg = true)
      (hr : r.id = e.relayId) :
      Move e p (.deliver i key mid) { p with
        wrapper
        relay := p.relay.sendMsg mid' { c with todo := some todo }
        calls := p.calls.set i { c with todo := some todo } }
  /-- A call sends to another receiver. -/
  | pass {i : ℕ} {key : Slab.Key} {mid : UInt64} {c : Call S} {r : Receiver} {todo : List Receiver}
      (hi : p.calls[i]? = some c) (hc : c.todo = some (r :: todo)) :
      Move e p (.deliver i key mid) { p with calls := p.calls.set i { c with todo := some todo } }
  | finish {i : ℕ} {res : Except (Error Unit GenericError) S} {relay : TcpRelay S}
      (hr : TcpRelay.Keeps e p.relay relay) :
      Move e p (.finish i res) { p with calls := p.calls.eraseIdx i, relay }
  | visit {need : Bool} {p' : Process S} (h : p.visit e need = some p') : Move e p (.visit need) p'
  | resume {round : Round} {r : Receiver} {todo : List Receiver}
      (hin : p.inbound = .awaiting round r todo) (hr : r.id ≠ e.relayId) :
      Move e p .resume { p with inbound := .visiting round.mark todo }
  | init {relay : TcpRelay S} (hr : TcpRelay.Keeps e p.relay relay) :
      Move e p .init { p with relay }
  | closeRelay {relay : TcpRelay S} (hr : TcpRelay.Keeps e p.relay relay) :
      Move e p .closeRelay { p with relay }
  | halt : Move e p .halt { p with relay := p.relay.halt }
  | callerAwait {round : Round} {relay : TcpRelay S} {n : Notify Sleeper}
      (hr : TcpRelay.Keeps e p.relay relay) (hn : n.permit = false) :
      Move e p (.callerAwait round) ({ p with relay }.setNotify n round)
  /-- The task of the caller panics. -/
  | callerPanic {round : Round} : Move e p (.callerAwait round) p
  | callerCancel {round : Round} :
      Move e p (.callerCancel round) (p.setNotify ((p.notify round).cancel .caller) round)
  | closeBus : Move e p .closeBus { p with closed := true }
  | exit : Move e p .exit { p with inbound := .ended }

theorem move_start {i : ℕ} (h : p.start e i = some p') : Move e p (.start i) p' := by
  unfold start at h
  split at h
  · rename_i origin kind msg frame hi
    cases h
    refine .start hi rfl ?_
    split_ifs
    · exact .inl rfl
    · exact .inr rfl
  · cases h

theorem move_deliver {i : ℕ} {key : Slab.Key} {mid : UInt64}
    (h : p.deliver e i key mid = some p') : Move e p (.deliver i key mid) p' := by
  unfold deliver at h
  split at h
  · rename_i origin kind msg frame r todo hi
    dsimp only at h
    by_cases hc : (kind.clones && !CloneMessage.tryClone msg || kind.withError && r.id == e.relayId)
        = true
    · rw [if_pos hc] at h
      cases h
      exact .panic
    · rw [if_neg hc] at h
      by_cases hr : r.id = e.relayId
      · rw [if_pos hr] at h
        obtain ⟨q, hq, h⟩ := Option.bind_eq_some_iff.1 h
        obtain ⟨wrapper, rfl⟩ := listen_eq hq
        rw [Option.ite_none_right_eq_some] at h
        obtain ⟨-, h⟩ := h
        cases h
        refine .put _ _ hi rfl (fun hk => ?_) hr
        simp only [hk, Bool.true_and, Bool.or_eq_true, not_or] at hc
        simpa using hc.1
      · rw [if_neg hr] at h
        cases h
        exact .pass hi rfl
  · cases h

theorem move_finish {i : ℕ} {res : Except (Error Unit GenericError) S}
    (h : p.finish i res = some p') : Move e p (.finish i res) p' := by
  unfold finish at h
  split at h
  · rename_i kind msg frame hi
    cases h
    refine .finish ?_
    rcases ha : (frame.bind (answerItem kind msg res)).bind fun item =>
      p.relay.sendItem (some item) 0 with _ | relay
    · exact .refl p.relay
    · obtain ⟨item, hitem, hsend⟩ := Option.bind_eq_some_iff.1 ha
      obtain ⟨mid, -, hitem⟩ := Option.bind_eq_some_iff.1 hitem
      exact TcpRelay.keeps_sendItem (noPlain_answerItem hitem 0) hsend
  · cases h

theorem move_callerAwait (e : Endpoint) (p : Process S) (round : Round) :
    Move e p (.callerAwait round) (p.callerAwait round) := by
  unfold callerAwait
  split
  · exact .callerAwait (keeps_sendAction ‹_›) (Notify.permit_notified _ _)
  · exact .callerPanic

theorem move {l : ProcLabel S} (h : p.act e l = some p') : Move e p l p' := by
  rcases l with _ | i | ⟨i, key, mid⟩ | ⟨i, res⟩ | need | _ | round | round | _ | _ | _ | _
  · simp only [act, Option.map_eq_some_iff] at h
    obtain ⟨relay, hr, rfl⟩ := h
    exact .init (TcpRelay.keeps_sendAction (fun id hid => by cases hid; rfl) hr)
  · exact move_start h
  · exact move_deliver h
  · exact move_finish h
  · exact .visit h
  · simp only [act, resume] at h
    split at h
    · rename_i round r todo hin
      split_ifs at h with hr
      cases h
      simp only [wake, List.mem_singleton, if_true, hin, Inbound.resume]
      exact .resume hin hr
    · cases h
  · cases h
    exact move_callerAwait e p round
  · cases h
    exact .callerCancel
  · cases h
    exact .closeBus
  · simp only [act, Option.map_eq_some_iff] at h
    obtain ⟨relay, hr, rfl⟩ := h
    exact .closeRelay (TcpRelay.keeps_sendAction (fun id hid => by cases hid) hr)
  · simp only [act] at h
    split_ifs at h
    cases h
    exact .exit
  · simp only [act] at h
    split_ifs at h
    cases h
    exact .halt

end Process

end Keeps

namespace LinkState

variable {S : Type} {c : Codec S} {L : Side → Endpoint} {s s' : LinkState S} {x : Side}

theorem procs_set (s : LinkState S) (x y : Side) (p : Process S) :
    (s.set x p).procs y = if y = x then p else s.procs y :=
  Function.update_apply _ _ _ _

/-- What holds of every process still does once it holds of the one that has moved. -/
theorem forall_set {P : Side → Process S → Prop} {p : Process S} (h : ∀ y, P y (s.procs y))
    (hx : P x p) (y : Side) : P y ((s.set x p).procs y) := by
  rw [procs_set]
  split_ifs with hy
  · exact hy ▸ hx
  · exact h y

variable [CloneMessage S]

theorem write_cases (h : s.write c x = some s') :
    (∃ items rx, (items = [] ∨ ∃ o, (s.procs x).relay.items = o :: items)
      ∧ s' = s.set x { s.procs x with relay.items := items, relay.rx := rx })
    ∨ ∃ item origin items pkt, (s.procs x).relay.items = (some item, origin) :: items
      ∧ item.serialize c .cbor [] = some (.ok pkt)
      ∧ s' = { s.set x { s.procs x with relay.items := items } with
          wire := Function.update s.wire x (s.wire x ++ [(pkt, origin)]) } := by
  unfold write at h
  dsimp only at h
  rw [Option.ite_none_right_eq_some] at h
  obtain ⟨-, h⟩ := h
  split at h
  · cases h
  · rename_i hitems
    cases h
    exact .inl ⟨_, _, .inr ⟨_, hitems⟩, rfl⟩
  · rename_i item origin items hitems
    split at h
    · rename_i pkt hpkt
      cases h
      exact .inr ⟨item, origin, items, pkt, hitems, hpkt, rfl⟩
    · cases h
      exact .inl ⟨[], false, .inl rfl, rfl⟩

theorem read_cases (h : s.read c L x = some s') : ∃ pkt origin rest,
    (s.procs x).relay.started = true ∧ (s.procs x).inbound = .reading
      ∧ s.wire x.other = (pkt, origin) :: rest
      ∧ s' = { s.set x ((s.procs x).read c (L x) pkt origin) with
          wire := Function.update s.wire x.other rest } := by
  unfold read at h
  dsimp only at h
  split at h
  · rename_i pkt origin rest hs hin hw
    cases h
    exact ⟨pkt, origin, rest, hs, hin, hw, rfl⟩
  · cases h

end LinkState

instance : CloneMessage Flag where
  tryClone _ := true

/-- A bus with no receiver but its relay. -/
def Endpoint.alone (table : MessageTable) : Endpoint where
  receivers := ⟨[⟨1, .relay table⟩], List.nodup_singleton _⟩
  relayId := 1
  inTable := table
  registered := List.mem_singleton.2 rfl

/-- A bus with no receiver but a relay for plain messages of the type `Flag`. -/
def Endpoint.flag : Endpoint := .alone (.ofList [("app::Flag", none)])

end MessageBus
