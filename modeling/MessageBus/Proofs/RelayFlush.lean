import MessageBus.Node
import MessageBus.Proofs.RelayCounters
import MessageBus.Proofs.SelfAwait
import MessageBus.Proofs.Serving

/-!
# Whether a `Flush` waits for the messages before it

The task of a `Send` frame may still be unpolled when the stream answers a `Flush` behind it. A
stream gets to a `Flush` past every frame but those that end it and a `Synchronize`, which leaves
it waiting for its own relay (`Inbound.Ok`); where no local receiver and no relay needs a flush yet,
it answers without waiting for anybody (`calm_flush`).
-/

namespace MessageBus

section Rounds

variable {S : Type} {c : Codec S} {e : Endpoint} {p p' : Process S} {frames : List ProtocolPacket}
  {n : ℕ}

/-- The events that end the event loop of a relay. -/
def Event.ends {M E : Type} : Event M E → Bool
  | .exited | .stats => true
  | _ => false

/-- The stream reads on after the frame. -/
def ProtocolPacket.Passes (c : Codec S) (pkt : ProtocolPacket) : Prop :=
  match pkt.deserialize c with
  | none | some (.ok .nop) | some (.ok (.action .sync)) => False
  | some (.ok (.event ev)) => ev.ends = false
  | _ => True

def ProtocolPacket.IsFlush (c : Codec S) (pkt : ProtocolPacket) : Prop :=
  pkt.deserialize c = some (.ok (.action .flush))

theorem ProtocolPacket.IsFlush.passes {pkt : ProtocolPacket} (h : pkt.IsFlush c) :
    pkt.Passes c := by
  unfold ProtocolPacket.Passes
  rw [h]
  trivial

/-- What the place of the stream says of the last frame read. -/
def Inbound.Ok (c : Codec S) (e : Endpoint) (frames : List ProtocolPacket) (n : ℕ) :
    Inbound → Prop
  | .reading => ∀ k pkt, k + 1 = n → frames[k]? = some pkt → pkt.Passes c
  | .visiting (.flushAll _ _) _ | .awaiting (.flushAll _ _) _ _ =>
    ∃ k pkt, k + 1 = n ∧ frames[k]? = some pkt ∧ pkt.IsFlush c
  | .visiting .syncAll todo => ∃ r ∈ todo, r.id = e.relayId
  | .awaiting .syncAll r todo => ∃ r' ∈ r :: todo, r'.id = e.relayId
  | .ended => True

theorem ok_of_flush {k : ℕ} {pkt : ProtocolPacket} (hk : k + 1 = n) (hpkt : frames[k]? = some pkt)
    (hf : pkt.IsFlush c) : Inbound.Ok c e frames n .reading := by
  intro k' pkt' hk' hpkt'
  obtain rfl : k' = k := by omega
  rw [hpkt] at hpkt'
  cases hpkt'
  exact hf.passes

namespace Process

theorem ok_answer (item : ProtocolItem S) (h : Inbound.Ok c e frames n .reading) :
    Inbound.Ok c e frames n (p.answer item).inbound := by
  rcases answer_inbound (p := p) item with hin | hin
  · rw [hin]
    exact h
  · rw [hin]
    trivial

theorem ok_visitRelay {round : Round} {r : Receiver} {todo : List Receiver}
    (hr : r.id = e.relayId) (hp : p.synchronized.permit = false)
    (h : Inbound.Ok c e frames n (.visiting round (r :: todo))) :
    Inbound.Ok c e frames n (p.visitRelay round r todo).inbound := by
  unfold visitRelay
  split_ifs with hneeds
  · split
    · rw [inbound_setNotify]
      dsimp only
      rw [Notify.notified_ready]
      rcases round with ⟨iter, flushed⟩ | _
      · split_ifs
        · exact h
        · exact h
      · rw [show (p.notify .syncAll).permit = false from hp]
        exact ⟨r, List.mem_cons_self, hr⟩
    · trivial
  · rcases round with ⟨iter, flushed⟩ | _
    · exact h
    · exact absurd rfl hneeds

theorem ok_visit {need : Bool} (hp : p.synchronized.permit = false)
    (h : Inbound.Ok c e frames n p.inbound) (hs : p.visit e need = some p') :
    Inbound.Ok c e frames n p'.inbound := by
  unfold visit at hs
  split at hs
  · rename_i round hin
    rw [hin] at h
    cases hs
    rcases round with ⟨iter, flushed⟩ | _
    · obtain ⟨k, pkt, hk, hpkt, hf⟩ := h
      unfold finishRound
      dsimp only
      split_ifs
      · exact ⟨k, pkt, hk, hpkt, hf⟩
      · exact ok_answer _ (ok_of_flush hk hpkt hf)
    · obtain ⟨r, hr, -⟩ := h
      cases hr
  · rename_i round r todo hin
    rw [hin] at h
    cases hs
    by_cases hr : r.id = e.relayId
    · rw [if_pos hr]
      exact ok_visitRelay hr hp h
    · rw [if_neg hr]
      rcases round with ⟨iter, flushed⟩ | _
      · dsimp only
        split_ifs
        · exact h
        · exact h
      · obtain ⟨r', hr', hid⟩ := h
        dsimp only
        split_ifs
        · exact ⟨r', hr', hid⟩
        · rcases List.mem_cons.1 hr' with rfl | hr'
          · exact absurd hid hr
          · exact ⟨r', hr', hid⟩
  · cases hs

/-- A stream that another receiver than the relay wakes goes on with its round. -/
theorem ok_resume {round : Round} {r : Receiver} {todo : List Receiver} (hr : r.id ≠ e.relayId)
    (h : Inbound.Ok c e frames n (.awaiting round r todo)) :
    Inbound.Ok c e frames n (.visiting round.mark todo) := by
  rcases round with ⟨iter, flushed⟩ | _
  · exact h
  · obtain ⟨r', hr', hid⟩ := h
    rcases List.mem_cons.1 hr' with rfl | hr'
    · exact absurd hid hr
    · exact ⟨r', hr', hid⟩

theorem loop_handleEvent [Message S] (w : RelayWrapper) (chans : RelayChannels S)
    (ev : Event S GenericError) :
    (w.handleEvent chans ev).loop = .running ↔ ev.ends = false := by
  cases ev with
  | response mid res => cases res <;> simp [RelayWrapper.handleEvent, Event.ends]
  | _ => simp [RelayWrapper.handleEvent, Event.ends]

theorem ok_reading {pkt : ProtocolPacket} (hpkt : frames[n]? = some pkt)
    (h : pkt.Passes c) : Inbound.Ok c e frames (n + 1) .reading := by
  intro k pkt' hk hpkt'
  obtain rfl : k = n := by omega
  rw [hpkt] at hpkt'
  cases hpkt'
  exact h

theorem ok_read [SharedMessage S] {pkt : ProtocolPacket} (hpkt : frames[n]? = some pkt)
    (hin : p.inbound = .reading) (origin : ℕ) :
    Inbound.Ok c e frames (n + 1) (p.read c e pkt origin).inbound := by
  have hok := ok_reading (c := c) (e := e) hpkt
  unfold read
  split
  · trivial
  · rename_i hd
    rw [hin]
    exact hok (by simp [ProtocolPacket.Passes, hd])
  · rename_i ev hd
    rw [inbound_handle ev hin]
    split_ifs with hev
    · exact hok (by simpa [ProtocolPacket.Passes, hd] using (loop_handleEvent _ _ ev).1 hev)
    · trivial
  · rename_i hd
    exact ok_answer _ (hok (by simp [ProtocolPacket.Passes, hd]))
  · rename_i hd
    exact ⟨n, pkt, rfl, hpkt, hd⟩
  · exact ⟨_, e.registered, rfl⟩
  · rename_i a hsync hflush hclose hd
    rw [hin]
    refine hok ?_
    unfold ProtocolPacket.Passes
    rw [hd]
    cases a <;> simp_all
  · rename_i hd
    show Inbound.Ok c e frames (n + 1) p.inbound
    rw [hin]
    exact hok (by simp [ProtocolPacket.Passes, hd])
  · trivial

theorem needFlush_handleEvent [Message S] {w : RelayWrapper} (h : w.context.needFlush = false)
    (chans : RelayChannels S) (ev : Event S GenericError) :
    (w.handleEvent chans ev).wrapper.context.needFlush = false := by
  cases ev with
  | response mid res =>
    cases res <;> simp [RelayWrapper.handleEvent, RelayContext.modify,
      RelayState.answer_context, h]
  | batchComplete tt n => exact h
  | flushed => rfl
  | _ => exact h

/-- Where the stream is once it has read a frame it gets past. -/
theorem read_passes [SharedMessage S] {pkt : ProtocolPacket} (hin : p.inbound = .reading)
    (hrx : p.relay.rx = true) (hneed : p.wrapper.context.needFlush = false) (hp : pkt.Passes c)
    (origin : ℕ) : (p.read c e pkt origin).relay.started = p.relay.started
      ∧ (p.read c e pkt origin).relay.rx = true
      ∧ (p.read c e pkt origin).wrapper.context.needFlush = false
      ∧ ((p.read c e pkt origin).inbound = .reading ∧ ¬ pkt.IsFlush c
        ∨ (p.read c e pkt origin).inbound
          = .visiting (.flushAll 0 false) e.receivers.receivers) := by
  unfold ProtocolPacket.Passes at hp
  unfold read ProtocolPacket.IsFlush
  split <;> rename_i hd <;> simp only [hd] at hp
  · exact ⟨rfl, hrx, hneed, .inl ⟨hin, by simp [hd]⟩⟩
  · rename_i ev
    obtain ⟨hrelay, -, hwrapper⟩ := handle_same p ev
    refine ⟨by rw [hrelay], by rw [hrelay, hrx], ?_, .inl ⟨?_, by simp [hd]⟩⟩
    · rw [hwrapper]
      exact needFlush_handleEvent hneed _ _
    · rw [inbound_handle ev hin, if_pos ((loop_handleEvent _ _ ev).2 hp)]
  · simp [answer, TcpRelay.sendItem, hrx, hneed, hd]
  · exact ⟨rfl, hrx, hneed, .inr rfl⟩
  · exact ⟨rfl, hrx, hneed, .inl ⟨hin, by simp_all⟩⟩
  · exact ⟨rfl, hrx, hneed, .inl ⟨hin, by simp [hd]⟩⟩

theorem relay_wake (ws : List Sleeper) : (p.wake ws).relay = p.relay := by
  unfold wake
  split_ifs <;> rfl

theorem ok_wake (ws : List Sleeper) (h : Inbound.Ok c e frames n p.inbound)
    (hr : ∀ round r todo, p.inbound = .awaiting round r todo → r.id ≠ e.relayId) :
    Inbound.Ok c e frames n (p.wake ws).inbound := by
  unfold wake
  split_ifs
  · dsimp only
    unfold Inbound.resume
    split
    · rename_i round r todo hin
      rw [hin] at h
      exact ok_resume (hr round r todo hin) h
    · exact h
  · exact h

variable [CloneMessage S]

theorem ok_act {l : ProcLabel S} (hs : p.act e l = some p') (hp : p.synchronized.permit = false)
    (h : Inbound.Ok c e frames n p.inbound) : Inbound.Ok c e frames n p'.inbound := by
  cases move hs with
  | visit hv => exact ok_visit hp h hv
  | resume hin hr =>
    rw [hin] at h
    exact ok_resume hr h
  | exit => trivial
  | callerAwait => rwa [inbound_setNotify]
  | callerCancel => rwa [inbound_setNotify]
  | _ => exact h

theorem isReply_answerItem {kind : CallKind} {msg : S} {res : Except (Error Unit GenericError) S}
    {mid : UInt64} {item : ProtocolItem S} (h : answerItem kind msg res mid = some item) :
    item.isReply = true := by
  unfold answerItem at h
  split_ifs at h
  · split at h
    · split_ifs at h
      cases h
      rfl
    · cases h
      rfl
  · cases h
    rfl

theorem isReply_puts_finish {l : ProcLabel S} (hl : l.ends = true) (hs : p.act e l = some p') :
    ∀ item ∈ p.puts p', item.isReply = true := by
  cases l with
  | finish i res =>
    rcases hi : p.calls[i]? with _ | d
    · simp [act, finish, hi] at hs
    · rcases hframe : d.frame with _ | mid
      · rw [(finish_user hi hframe hs).2]
        simp
      · rw [(finish_job hi hframe hs).2]
        split_ifs
        · intro item hitem
          exact isReply_answerItem (by simpa using hitem)
        · simp
  | _ => cases hl

/-- Only the end of a `flush_all` puts a `Flushed` on the item channel. -/
theorem flushed_puts {l : ProcLabel S} (hs : p.act e l = some p')
    (hf : .event .flushed ∈ p.puts p') :
    ∃ iter flushed, p.inbound = .visiting (.flushAll iter flushed) [] := by
  by_contra hno
  have hput : ∀ item ∈ p.puts p', item ≠ .event .flushed := by
    by_cases hend : l.ends = true
    · rintro item hi rfl
      cases isReply_puts_finish hend hs _ hi
    · rw [Bool.not_eq_true] at hend
      by_cases hv : ∃ need, l = .visit need
      · obtain ⟨need, rfl⟩ := hv
        exact putsOnly_visit (Q := fun item => item ≠ .event .flushed) (by simp)
          (fun iter flushed hin => absurd ⟨iter, flushed, hin⟩ hno) (by simp) hs
      · exact putsOnly_act (Q := fun item => item ≠ .event .flushed) (by simp) (by simp) hend
          (not_exists.1 hv) hs
  exact hput _ hf rfl

end Process

end Rounds

section Gets

variable {S : Type} [CloneMessage S] {loc : UInt64 → LocalPoller S} {c : Codec S} {e : Endpoint}
  {frames : List ProtocolPacket} {s s' : Node S loc}

theorem relayId_ne_of_isLocal {r : Receiver} (h : e.isLocal r = true) : r.id ≠ e.relayId := by
  unfold Endpoint.isLocal at h
  split at h
  · simpa using h
  · cases h

namespace Node

/-- The frames the stream has got past, and where it stands. -/
structure Got (c : Codec S) (e : Endpoint) (frames : List ProtocolPacket) (s : Node S loc) :
    Prop where
  passed : ∀ k pkt, k + 1 < s.read → frames[k]? = some pkt → pkt.Passes c
  inbound : Inbound.Ok c e frames s.read s.proc.inbound
  permit : s.proc.synchronized.permit = false

/-- The process takes a step, after which a local receiver may wake the stream at once. -/
def Acts (e : Endpoint) (s s' : Node S loc) : Prop :=
  s'.read = s.read ∧ ∃ l p, s.proc.act e l = some p ∧ (s'.proc = p ∨ s'.proc = p.wake [.inbound]
    ∧ ∀ round r todo, p.inbound = .awaiting round r todo → r.id ≠ e.relayId)

theorem visit_cases {need : Bool} (h : s.visit e need = some s') : Acts e s s' := by
  unfold visit at h
  split at h
  · rename_i round r todo hin
    by_cases hr : e.isLocal r = true
    · rw [if_pos hr] at h
      split_ifs at h
      · obtain ⟨p, hp, rfl⟩ := Option.map_eq_some_iff.1 h
        refine ⟨rfl, .visit true, p, hp, ?_⟩
        dsimp only
        split_ifs
        · refine .inr ⟨rfl, ?_⟩
          have hne := relayId_ne_of_isLocal hr
          simp only [Process.visit, hin, if_neg hne, if_true, Option.some.injEq] at hp
          rintro round' r' todo' hin'
          rw [← hp] at hin'
          cases hin'
          exact hne
        · exact .inl rfl
      · obtain ⟨p, hp, rfl⟩ := Option.map_eq_some_iff.1 h
        exact ⟨rfl, .visit false, p, hp, .inl rfl⟩
    · rw [if_neg hr] at h
      obtain ⟨p, hp, rfl⟩ := Option.map_eq_some_iff.1 h
      exact ⟨rfl, .visit need, p, hp, .inl rfl⟩
  · obtain ⟨p, hp, rfl⟩ := Option.map_eq_some_iff.1 h
    exact ⟨rfl, .visit need, p, hp, .inl rfl⟩

theorem act_cases {l : ProcLabel S} (h : s.act e l = some s') : Acts e s s' := by
  unfold act at h
  split at h
  · rename_i i key mid
    obtain ⟨p, hp, h⟩ := Option.bind_eq_some_iff.1 h
    split at h
    · split_ifs at h
      · obtain ⟨r, -, rfl⟩ := Option.map_eq_some_iff.1 h
        exact ⟨rfl, .deliver i key mid, p, hp, .inl rfl⟩
      · cases h
        exact ⟨rfl, .deliver i key mid, p, hp, .inl rfl⟩
    · cases h
  · rename_i need
    exact visit_cases h
  · unfold resume at h
    split at h
    · split_ifs at h
      obtain ⟨p, hp, rfl⟩ := Option.map_eq_some_iff.1 h
      exact ⟨rfl, .resume, p, hp, .inl rfl⟩
    · cases h
  · obtain ⟨p, hp, rfl⟩ := Option.map_eq_some_iff.1 h
    exact ⟨rfl, .exit, p, hp, .inl rfl⟩
  · obtain ⟨p, hp, rfl⟩ := Option.map_eq_some_iff.1 h
    exact ⟨rfl, _, p, hp, .inl rfl⟩

theorem read_eq_some (h : (node loc c e frames).step s .read = some s') : ∃ pkt,
    s.proc.relay.started = true ∧ s.proc.inbound = .reading ∧ frames[s.read]? = some pkt
      ∧ s' = { s with proc := s.proc.read c e pkt s.read, read := s.read + 1 } := by
  simp only [node, step] at h
  split at h
  · rename_i pkt hstarted hin hpkt
    cases h
    exact ⟨pkt, hstarted, hin, hpkt, rfl⟩
  · cases h

omit [CloneMessage S] in
theorem proc_wake (id : UInt64) (ws : List Sleeper) : (s.wake e id ws).read = s.read
    ∧ ((s.wake e id ws).proc = s.proc ∨ (s.wake e id ws).proc = s.proc.wake ws
      ∧ ∀ round r todo, s.proc.inbound = .awaiting round r todo → r.id ≠ e.relayId) := by
  unfold wake
  split
  · rename_i round r todo hin
    split_ifs with hr
    · refine ⟨rfl, .inr ⟨rfl, fun round' r' todo' hin' => ?_⟩⟩
      rw [hin] at hin'
      cases hin'
      exact relayId_ne_of_isLocal (by simpa using (Bool.and_eq_true_iff.1 hr).1)
    · exact ⟨rfl, .inl rfl⟩
  · exact ⟨rfl, .inl rfl⟩

omit [CloneMessage S] in
theorem Got.moved (h : Got c e frames s) (hread : s'.read = s.read)
    (hin : Inbound.Ok c e frames s.read s'.proc.inbound)
    (hp : s'.proc.synchronized.permit = false) : Got c e frames s' :=
  ⟨fun k pkt hk => h.passed k pkt (hread ▸ hk), hread ▸ hin, hp⟩

theorem Got.acts (h : Got c e frames s) (hs : Acts e s s') : Got c e frames s' := by
  obtain ⟨hread, l, p, hp, hproc⟩ := hs
  have hok := Process.ok_act hp h.permit h.inbound
  have hpermit := Process.permit_act hp h.permit
  rcases hproc with hproc | ⟨hproc, hr⟩
  · exact h.moved hread (hproc ▸ hok) (hproc ▸ hpermit)
  · refine h.moved hread ?_ ?_
    · rw [hproc]
      exact Process.ok_wake _ hok hr
    · rw [hproc, Process.synchronized_wake]
      exact hpermit

theorem got_step {l : NodeLabel S loc} (h : Got c e frames s)
    (hs : (node loc c e frames).step s l = some s') : Got c e frames s' := by
  cases l with
  | call kind msg =>
    cases hs
    exact h.moved rfl h.inbound h.permit
  | act l => exact h.acts (act_cases hs)
  | write =>
    obtain ⟨p, hp, rfl⟩ := Option.map_eq_some_iff.1 hs
    obtain ⟨o, items, -, rfl⟩ := Process.take_eq_some hp
    exact h.moved rfl h.inbound h.permit
  | read =>
    obtain ⟨pkt, -, hin, hpkt, rfl⟩ := read_eq_some hs
    refine ⟨fun k pkt' hk hpkt' => ?_, Process.ok_read hpkt hin _,
      Process.permit_read c pkt _ h.permit⟩
    by_cases hlt : k + 1 < s.read
    · exact h.passed k pkt' hlt hpkt'
    · have hok := h.inbound
      rw [hin] at hok
      exact hok k pkt' (by dsimp only at hk; omega) hpkt'
  | receiver id l =>
    obtain ⟨⟨r, ws⟩, -, rfl⟩ := Option.map_eq_some_iff.1 hs
    obtain ⟨hread, hproc⟩ := proc_wake (e := e) (s := s.setLocal id r) id ws
    rcases hproc with hproc | ⟨hproc, hr⟩
    · exact h.moved hread (hproc ▸ h.inbound) (hproc ▸ h.permit)
    · refine h.moved hread ?_ ?_
      · rw [hproc]
        exact Process.ok_wake _ h.inbound hr
      · rw [hproc, Process.synchronized_wake]
        exact h.permit

end Node

end Gets

section Barrier

variable {S : Type} [CloneMessage S] (loc : UInt64 → LocalPoller S) (c : Codec S) (e : Endpoint)
  (frames : List ProtocolPacket)

/-- The frame carries a plain message whose tag has the receivers `rs`, all of them local and
unbatched. -/
structure ProtocolPacket.SendsTo (pkt : ProtocolPacket) (rs : List Receiver) : Prop where
  plain : pkt.header.flags.contains .argument = false
  carries : ∃ msg, pkt.Carries c msg
    ∧ rs = e.bus.selectReceivers (Message.typeTag msg) .broadcast none none false
  unbatched : ∀ r ∈ rs, e.isLocal r = true ∧ (loc r.id).Unbatched

variable {loc} in
/-- The message of the `i`-th frame has been enqueued at the receiver and its handler has
returned. -/
def Node.Handled (s : Node S loc) (i : ℕ) (r : Receiver) : Prop :=
  (∃ msg, (msg, i) ∈ (loc r.id).enqueued (s.locals r.id).served.poller)
    ∧ ∃ msg, (msg, i) ∈ (loc r.id).returned (s.locals r.id).served.poller

/-- Whenever the relay puts a `Flushed` on its item channel, the messages of the frames before the
last one read, which is the `Flush`, have been handled. -/
def FlushBarrier : Prop :=
  ∀ s l s', (node loc c e frames).Reachable s → (node loc c e frames).step s l = some s' →
    .event .flushed ∈ s.proc.puts s'.proc →
      ∀ i pkt rs, i + 1 < s.read → frames[i]? = some pkt → pkt.SendsTo loc c e rs →
        ∀ r ∈ rs, s'.Handled i r

/-- The stream gets to a `Flush` that stands behind a plain message for unbatched receivers. -/
def Overtakes : Prop :=
  ∃ (i j : ℕ) (pkt flush : ProtocolPacket) (rs : List Receiver), i < j
    ∧ frames[i]? = some pkt ∧ pkt.SendsTo loc c e rs ∧ rs ≠ []
    ∧ frames[j]? = some flush ∧ flush.IsFlush c
    ∧ ∀ (k : ℕ) (pkt : ProtocolPacket), k < j → frames[k]? = some pkt → pkt.Passes c

variable {loc c e frames} {s s' : Node S loc}

namespace Node

omit [CloneMessage S] in
theorem not_enqueued_start {L : LocalPoller S} (h : L.Unbatched) (x : S × ℕ) :
    x ∉ L.enqueued (LocalReceiver.start L).served.poller := by
  cases h with
  | bufferUnordered => exact List.not_mem_nil
  | synchronized => exact List.not_mem_nil

theorem flushed_step {l : NodeLabel S loc} (hs : (node loc c e frames).step s l = some s')
    (hf : .event .flushed ∈ s.proc.puts s'.proc) :
    ∃ iter flushed, s.proc.inbound = .visiting (.flushAll iter flushed) [] := by
  have hnone : ∀ p : Process S, p.relay = s.proc.relay → .event .flushed ∉ s.proc.puts p := by
    intro p hp
    rw [Process.puts_of_eq (by rw [hp])]
    exact List.not_mem_nil
  cases l with
  | call kind msg =>
    cases hs
    exact absurd hf (hnone _ rfl)
  | act l =>
    obtain ⟨-, l, p, hp, hproc⟩ := act_cases hs
    refine Process.flushed_puts hp ?_
    rcases hproc with hproc | ⟨hproc, -⟩
    · rwa [hproc] at hf
    · rwa [hproc, Process.puts, Process.relay_wake] at hf
  | write =>
    obtain ⟨p, hp, rfl⟩ := Option.map_eq_some_iff.1 hs
    rw [Process.puts_take hp] at hf
    cases hf
  | read =>
    obtain ⟨pkt, -, -, -, rfl⟩ := read_eq_some hs
    exact absurd rfl (Process.putsOnly_read (Q := fun item => item ≠ .event .flushed) (by simp)
      pkt _ _ hf)
  | receiver id l =>
    obtain ⟨⟨r, ws⟩, -, rfl⟩ := Option.map_eq_some_iff.1 hs
    refine absurd hf (hnone _ ?_)
    rcases (proc_wake (e := e) (s := s.setLocal id r) id ws).2 with hproc | ⟨hproc, -⟩
    · rw [hproc]
      rfl
    · rw [hproc, Process.relay_wake]
      rfl

omit [CloneMessage S] in
theorem got_start : Got c e frames (start : Node S loc) :=
  ⟨fun _ _ hk => absurd hk (by simp [start]), fun _ _ hk => absurd hk (by simp [start]), rfl⟩

theorem flushBarrier_of_not_overtakes (h : ¬ Overtakes loc c e frames) :
    FlushBarrier loc c e frames := by
  intro s l s' hreach hs hf i pkt rs hi hpkt hsends r hr
  have hgot : Got c e frames s := Lts.invariant got_start (fun _ _ _ => got_step) hreach
  obtain ⟨iter, flushed, hin⟩ := flushed_step hs hf
  have hok := hgot.inbound
  rw [hin] at hok
  obtain ⟨j, flush, hj, hflush, hisFlush⟩ := hok
  refine absurd ⟨i, j, pkt, flush, rs, by omega, hpkt, hsends, List.ne_nil_of_mem hr, hflush,
    hisFlush, fun k pkt' hk => hgot.passed k pkt' (by omega)⟩ h

/-- Nobody has sent anything yet, nor done anything with the frames that were read. -/
structure Calm (s : Node S loc) : Prop where
  started : s.proc.relay.started = true
  rx : s.proc.relay.rx = true
  needFlush : s.proc.wrapper.context.needFlush = false
  locals : s.locals = fun id => .start (loc id)

omit [CloneMessage S] in
theorem Calm.setInbound (h : Calm s) (inbound : Inbound) :
    Calm { s with proc.inbound := inbound } :=
  ⟨h.started, h.rx, h.needFlush, h.locals⟩

/-- A round that comes to a receiver passes it by. -/
theorem calm_visit (h : Calm s) {iter : ℕ} {flushed : Bool} {r : Receiver} {todo : List Receiver}
    (hin : s.proc.inbound = .visiting (.flushAll iter flushed) (r :: todo)) :
    (node loc c e frames).step s (.act (.visit false))
      = some { s with proc.inbound := .visiting (.flushAll iter flushed) todo } := by
  have hproc : s.proc.visit e false
      = some { s.proc with inbound := .visiting (.flushAll iter flushed) todo } := by
    by_cases hr : r.id = e.relayId
    · simp [Process.visit, hin, hr, Process.visitRelay, Process.needs, h.needFlush]
    · simp [Process.visit, hin, hr]
  have hneeds : (s.locals r.id).needs (.flushAll iter flushed) = false := by
    rw [h.locals]
    rfl
  show s.visit e false = _
  simp [visit, hin, hneeds, hproc]

theorem reach_visited {iter : ℕ} {flushed : Bool} :
    ∀ {todo : List Receiver} {s : Node S loc}, (node loc c e frames).Reachable s → Calm s →
      s.proc.inbound = .visiting (.flushAll iter flushed) todo →
      (node loc c e frames).Reachable
        { s with proc.inbound := .visiting (.flushAll iter flushed) [] }
  | [], s, hr, _, hin => by
    rw [← hin]
    exact hr
  | _ :: todo, s, hr, h, hin =>
    reach_visited (s := { s with proc.inbound := .visiting (.flushAll iter flushed) todo })
      (hr.step (calm_visit h hin)) (h.setInbound _) rfl

/-- The first pass of a `flush_all` that needed nobody is its last. -/
theorem calm_flush (h : Calm s) (hin : s.proc.inbound = .visiting (.flushAll 0 false) []) :
    ∃ s', (node loc c e frames).step s (.act (.visit false)) = some s'
      ∧ .event .flushed ∈ s.proc.puts s'.proc ∧ Calm s' ∧ s'.proc.inbound = .reading
      ∧ s'.read = s.read := by
  have hproc : s.proc.visit e false = some { s.proc with
      relay.items := s.proc.relay.items ++ [(some (.event .flushed), 0)]
      inbound := .reading } := by
    simp [Process.visit, hin, Process.finishRound, Process.answer, TcpRelay.sendItem, h.rx]
  have hstep : (node loc c e frames).step s (.act (.visit false)) = some { s with
      proc := { s.proc with
        relay.items := s.proc.relay.items ++ [(some (.event .flushed), 0)]
        inbound := .reading } } := by
    show s.visit e false = _
    simp only [visit, hin, hproc, Option.map_some]
  refine ⟨_, hstep, ?_, ⟨h.started, h.rx, h.needFlush, h.locals⟩, rfl, rfl⟩
  rw [Process.puts_append _ 0 rfl]
  exact List.mem_singleton_self _

theorem calm_read (h : Calm s) (hin : s.proc.inbound = .reading) {pkt : ProtocolPacket}
    (hpkt : frames[s.read]? = some pkt) (hp : pkt.Passes c) :
    ∃ s', (node loc c e frames).step s .read = some s' ∧ Calm s' ∧ s'.read = s.read + 1
      ∧ (s'.proc.inbound = .reading ∧ ¬ pkt.IsFlush c
        ∨ s'.proc.inbound = .visiting (.flushAll 0 false) e.receivers.receivers) := by
  have hstep : (node loc c e frames).step s .read
      = some { s with proc := s.proc.read c e pkt s.read, read := s.read + 1 } := by
    simp only [node, step, h.started, hin, hpkt]
  obtain ⟨hstarted, hrx, hneed, hwhere⟩ := Process.read_passes (e := e) hin h.rx h.needFlush hp
    s.read
  exact ⟨_, hstep, ⟨hstarted.trans h.started, hrx, hneed, h.locals⟩, rfl, hwhere⟩

/-- The stream may get past the frames before anything else happens. -/
theorem reach_calm : ∀ n ≤ frames.length,
    (∀ (k : ℕ) (pkt : ProtocolPacket), k < n → frames[k]? = some pkt → pkt.Passes c) →
    ∃ s : Node S loc, (node loc c e frames).Reachable s ∧ Calm s ∧ s.proc.inbound = .reading
      ∧ s.read = n
  | 0, _, _ => by
    have hinit : (node loc c e frames).step start (.act .init) = some { (start : Node S loc) with
        proc.relay := { TcpRelay.new with selfId := e.relayId, started := true } } := rfl
    exact ⟨_, Lts.Reachable.start.step hinit, ⟨rfl, rfl, rfl, rfl⟩, rfl, rfl⟩
  | n + 1, hn, hp => by
    obtain ⟨s, hr, hcalm, hin, rfl⟩ := reach_calm n (by omega) fun k pkt hk => hp k pkt (by omega)
    obtain ⟨pkt, hpkt⟩ : ∃ pkt, frames[s.read]? = some pkt :=
      ⟨_, List.getElem?_eq_getElem (by omega)⟩
    obtain ⟨t, ht, hcalm', hread, hwhere⟩ := calm_read hcalm hin hpkt (hp _ pkt (by omega) hpkt)
    rcases hwhere with ⟨hin', -⟩ | hin'
    · exact ⟨t, hr.step ht, hcalm', hin', hread⟩
    · have hvisited := reach_visited (hr.step ht) hcalm' hin'
      obtain ⟨u, hu, -, hcalm'', hin'', hread'⟩ := calm_flush (hcalm'.setInbound _) rfl
      exact ⟨u, hvisited.step hu, hcalm'', hin'', hread'.trans hread⟩

theorem not_flushBarrier_of_overtakes (h : Overtakes loc c e frames) :
    ¬ FlushBarrier loc c e frames := by
  intro hbarrier
  obtain ⟨i, j, pkt, flush, rs, hij, hpkt, hsends, hne, hflush, hisFlush, hp⟩ := h
  obtain ⟨hlt, -⟩ := List.getElem?_eq_some_iff.1 hflush
  obtain ⟨s, hr, hcalm, hin, rfl⟩ : ∃ s : Node S loc, (node loc c e frames).Reachable s ∧ Calm s
    ∧ s.proc.inbound = .reading ∧ s.read = j := reach_calm j (Nat.le_of_lt hlt) hp
  obtain ⟨t, ht, hcalm', hread, hwhere⟩ := calm_read hcalm hin hflush hisFlush.passes
  have hin' := hwhere.resolve_left fun h => h.2 hisFlush
  obtain ⟨u, hu, hput, hcalm'', -⟩ := calm_flush (hcalm'.setInbound _) rfl
  obtain ⟨r, hr'⟩ := List.exists_mem_of_ne_nil _ hne
  have hvisited := reach_visited (hr.step ht) hcalm' hin'
  obtain ⟨⟨msg, hmsg⟩, -⟩ := hbarrier _ _ _ hvisited hu hput i pkt rs (by dsimp only; omega) hpkt
    hsends r hr'
  rw [hcalm''.locals] at hmsg
  exact not_enqueued_start (hsends.unbatched r hr').2 _ hmsg

end Node

/-- For which sequences of frames a `Flush` is a barrier: those in which none that the stream gets
to stands behind a plain message for unbatched receivers. -/
theorem flushBarrier_iff (loc : UInt64 → LocalPoller S) (c : Codec S) (e : Endpoint)
    (frames : List ProtocolPacket) : FlushBarrier loc c e frames ↔ ¬ Overtakes loc c e frames :=
  ⟨fun h ho => Node.not_flushBarrier_of_overtakes ho h, Node.flushBarrier_of_not_overtakes⟩

end Barrier

/-- A bus with its relay and a local receiver for the type `Flag`. -/
def Endpoint.served : Endpoint where
  receivers := ⟨[⟨1, .relay .empty⟩, ⟨2, .localTypes "app::Flag" "app::Flag" "app::Error"⟩],
    by decide⟩
  relayId := 1
  inTable := .empty
  registered := List.mem_cons_self

namespace Flag

/-- A plain message, then a `Flush`. -/
theorem flush_overtakes_message :
    ¬ FlushBarrier (fun _ => .bufferUnordered (E := GenericError) (fun resp : Flag => resp) 8 ⟨8⟩)
      codec .served
      [frame "app::Flag" false, ProtocolItem.pack .flush none .empty .none 0 none] := by
  have hcarries : (frame "app::Flag" false).Carries codec ⟨true⟩ :=
    (carries_frame _ _ _).2 ⟨rfl, rfl⟩
  have hrecv : BusInner.selectReceivers Endpoint.served.bus "app::Flag" .broadcast none none false
      = [⟨2, .localTypes "app::Flag" "app::Flag" "app::Error"⟩] := by
    rfl
  refine Node.not_flushBarrier_of_overtakes ⟨0, 1, frame "app::Flag" false, _, _, Nat.zero_lt_one,
    rfl, ⟨rfl, ⟨⟨true⟩, hcarries, hrecv.symm⟩, ?_⟩, List.cons_ne_nil _ _, rfl, rfl, ?_⟩
  · intro r hr
    obtain rfl := List.mem_singleton.1 hr
    exact ⟨rfl, .bufferUnordered _ _ _⟩
  · intro k pkt hk hpkt
    obtain rfl : k = 0 := by omega
    cases hpkt
    unfold ProtocolPacket.Passes
    rw [ProtocolPacket.deserialize_eq_send.2 ⟨hcarries, rfl, rfl⟩]
    trivial

end Flag

end MessageBus
