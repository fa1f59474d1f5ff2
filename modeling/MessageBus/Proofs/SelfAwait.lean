import MessageBus.Proofs.Link

/-!
# A relay that waits for itself

Only a round that comes to the relay of its own bus can leave the inbound stream waiting for it
(`selfAwait_act`), and from there no step but the end of the stream leads on (`selfAwait_stays`):
the `Flushed` or `Synchronized` it waits for is among the frames it does not read.
-/

namespace MessageBus

variable {S : Type}

namespace Process

/-- The inbound stream is suspended in a call that waits for the relay the stream belongs to. -/
def SelfAwait (e : Endpoint) (p : Process S) : Prop :=
  match p.inbound with
  | .awaiting _ r _ => r.id = e.relayId
  | _ => False

/-- A round that comes to the relay now would wait for it. -/
def Blocks (p : Process S) (round : Round) : Prop :=
  p.needs round = true ∧ p.relay.rx = true ∧ (p.notify round).permit = false

variable {e : Endpoint} {p p' : Process S}

theorem selfAwait_iff : p.SelfAwait e
    ↔ ∃ round r todo, p.inbound = .awaiting round r todo ∧ r.id = e.relayId := by
  unfold SelfAwait
  split
  · rename_i round r todo h
    rw [h]
    exact ⟨fun h => ⟨_, _, _, rfl, h⟩, by rintro ⟨_, _, _, h, hr⟩; cases h; exact hr⟩
  · rename_i h
    exact ⟨False.elim, fun ⟨round, r, todo, h', _⟩ => h round r todo h'⟩

theorem selfAwait_congr (h : p'.inbound = p.inbound) : p'.SelfAwait e ↔ p.SelfAwait e := by
  unfold SelfAwait
  rw [h]

theorem sendAction_action {r : TcpRelay S} (round : Round) :
    (r.sendAction round.action).isSome = r.rx := by
  have hsend : ∀ item : Option (ProtocolItem S), (r.sendItem item 0).isSome = r.rx := by
    intro item
    unfold TcpRelay.sendItem
    split_ifs with h <;> simp [h]
  rcases round with _ | _
  · exact hsend _
  · exact hsend _

theorem selfAwait_visitRelay {round : Round} {r : Receiver} {todo : List Receiver}
    (hr : r.id = e.relayId) : (p.visitRelay round r todo).SelfAwait e ↔ p.Blocks round := by
  have hsome := sendAction_action (r := p.relay) round
  unfold visitRelay Blocks
  by_cases hn : p.needs round = true
  · rw [if_pos hn]
    rcases ha : p.relay.sendAction round.action with _ | relay
    · rw [ha] at hsome
      simp [← hsome, SelfAwait]
    · rw [ha] at hsome
      simp only [SelfAwait, inbound_setNotify, Notify.notified_ready]
      by_cases hp : (p.notify round).permit = true
      · simp [hp]
      · simp [hp, hn, ← hsome, hr]
  · rw [if_neg hn]
    simp [hn, SelfAwait]

theorem answer_inbound (item : ProtocolItem S) :
    (p.answer item).inbound = .reading ∨ (p.answer item).inbound = .ended := by
  unfold answer
  split
  · exact .inl rfl
  · exact .inr rfl

theorem wake_inbound (ws : List Sleeper) (h : p.inbound = .reading) :
    (p.wake ws).inbound = .reading := by
  unfold wake
  split_ifs
  · simp [h, Inbound.resume]
  · exact h

theorem ring_inbound (w : RelayWake) (h : p.inbound = .reading) :
    (p.ring w).inbound = .reading := by
  unfold ring
  split
  · exact wake_inbound _ h
  · exact wake_inbound _ h
  · exact h

theorem inbound_handle [Message S] (ev : Event S GenericError) (h : p.inbound = .reading) :
    (p.handle ev).inbound
      = if (p.wrapper.handleEvent p.chans ev).loop = .running then .reading else .ended := by
  obtain ⟨q, hq, heq⟩ := handle_rings (P := fun q => q.inbound = .reading) p ev h
    fun _ w hq => ring_inbound w hq
  rw [heq]
  split_ifs
  · exact hq
  · rfl

theorem not_selfAwait_of_inbound (h : p.inbound = .reading ∨ p.inbound = .ended) :
    ¬ p.SelfAwait e := by
  unfold SelfAwait
  rcases h with h | h <;> simp [h]

theorem not_selfAwait_read [SharedMessage S] (c : Codec S) (pkt : ProtocolPacket) (origin : ℕ)
    (h : p.inbound = .reading) : ¬ (p.read c e pkt origin).SelfAwait e := by
  unfold read
  split
  · exact not_selfAwait_of_inbound (.inr rfl)
  · exact not_selfAwait_of_inbound (.inl h)
  · refine not_selfAwait_of_inbound ?_
    rw [inbound_handle _ h]
    split_ifs
    · exact .inl rfl
    · exact .inr rfl
  · exact not_selfAwait_of_inbound (answer_inbound _)
  · exact id
  · exact id
  · exact not_selfAwait_of_inbound (.inl h)
  · exact not_selfAwait_of_inbound (.inl h)
  · exact not_selfAwait_of_inbound (.inr rfl)

theorem not_selfAwait_finishRound (round : Round) : ¬ (p.finishRound e round).SelfAwait e := by
  unfold finishRound
  split
  · split_ifs
    · exact id
    · exact not_selfAwait_of_inbound (answer_inbound _)
  · exact not_selfAwait_of_inbound (answer_inbound _)

theorem selfAwait_visit {need : Bool} (hs : p.visit e need = some p') (h : p'.SelfAwait e) :
    ∃ round r todo, p.inbound = .visiting round (r :: todo) ∧ r.id = e.relayId
      ∧ p.Blocks round := by
  unfold visit at hs
  split at hs
  · cases hs
    exact absurd h (not_selfAwait_finishRound _)
  · rename_i round r todo hin
    by_cases hr : r.id = e.relayId
    · rw [if_pos hr] at hs
      cases hs
      exact ⟨round, r, todo, hin, hr, (selfAwait_visitRelay hr).1 h⟩
    · rw [if_neg hr] at hs
      cases hs
      unfold SelfAwait at h
      split_ifs at h <;> exact absurd h (by simp [hr])
  · cases hs

section Permit

theorem permit_setNotify {n : Notify Sleeper} {round : Round} (h : p.synchronized.permit = false)
    (hn : round = .syncAll → n.permit = false) :
    (p.setNotify n round).synchronized.permit = false := by
  rcases round with _ | _
  · exact h
  · exact hn rfl

theorem synchronized_wake (ws : List Sleeper) : (p.wake ws).synchronized = p.synchronized := by
  unfold wake
  split_ifs <;> rfl

theorem permit_ring (w : RelayWake) (h : p.synchronized.permit = false) :
    (p.ring w).synchronized.permit = false := by
  unfold ring
  split
  · rw [synchronized_wake]
    exact h
  · rw [synchronized_wake]
    show p.synchronized.notifyWaiters.1.permit = false
    rw [Notify.permit_notifyWaiters]
    exact h
  · exact h

theorem permit_handle [Message S] (ev : Event S GenericError)
    (h : p.synchronized.permit = false) : (p.handle ev).synchronized.permit = false := by
  obtain ⟨q, hq, heq⟩ := handle_rings (P := fun q => q.synchronized.permit = false) p ev h
    fun _ w hq => permit_ring w hq
  rw [heq]
  split_ifs
  · exact hq
  · exact hq

theorem synchronized_answer (item : ProtocolItem S) :
    (p.answer item).synchronized = p.synchronized := by
  unfold answer
  split <;> rfl

theorem permit_read [SharedMessage S] (c : Codec S) (pkt : ProtocolPacket) (origin : ℕ)
    (h : p.synchronized.permit = false) : (p.read c e pkt origin).synchronized.permit = false := by
  unfold read
  split
  · exact h
  · exact h
  · exact permit_handle _ h
  · rw [synchronized_answer]
    exact h
  · exact h
  · exact h
  · exact h
  · exact h
  · exact h

theorem permit_visit {need : Bool} (hs : p.visit e need = some p')
    (h : p.synchronized.permit = false) : p'.synchronized.permit = false := by
  unfold visit at hs
  split at hs
  · cases hs
    unfold finishRound
    split
    · split_ifs
      · exact h
      · rw [synchronized_answer]
        exact h
    · rw [synchronized_answer]
      exact h
  · cases hs
    split_ifs
    · unfold visitRelay
      split_ifs
      · split
        · exact permit_setNotify h fun _ => Notify.permit_notified _ _
        · exact h
      · exact h
    · exact h
    · exact h
  · cases hs

end Permit

variable [CloneMessage S]

theorem permit_act {l : ProcLabel S} (hs : p.act e l = some p')
    (h : p.synchronized.permit = false) : p'.synchronized.permit = false := by
  cases move hs with
  | visit hv => exact permit_visit hv h
  | callerAwait hr hn => exact permit_setNotify h fun _ => hn
  | callerCancel =>
    refine permit_setNotify h fun hr => ?_
    rw [Notify.permit_cancel, hr]
    exact h
  | _ => exact h

/-- What can leave the stream waiting for its relay. -/
theorem selfAwait_act {l : ProcLabel S} (hs : p.act e l = some p') (h : p'.SelfAwait e) :
    p.SelfAwait e ∨ ∃ need round r todo, l = .visit need ∧ p.inbound = .visiting round (r :: todo)
      ∧ r.id = e.relayId ∧ p.Blocks round := by
  cases move hs with
  | visit hv =>
    obtain ⟨round, r, todo, hin, hr, hb⟩ := selfAwait_visit hv h
    exact .inr ⟨_, round, r, todo, rfl, hin, hr, hb⟩
  | resume => cases h
  | exit => cases h
  | @callerAwait round relay n =>
    exact .inl ((selfAwait_congr (inbound_setNotify { p with relay } n round)).1 h)
  | callerCancel => exact .inl ((selfAwait_congr (inbound_setNotify _ _ _)).1 h)
  | _ => exact .inl h

/-- The way out is the end of the stream. -/
theorem selfAwait_act_stays {l : ProcLabel S} (hs : p.act e l = some p') (h : p.SelfAwait e) :
    p'.SelfAwait e ∨ l = .exit := by
  cases move hs with
  | visit hv =>
    obtain ⟨round, r, todo, hin, -⟩ := selfAwait_iff.1 h
    simp only [visit, hin] at hv
    cases hv
  | resume hin hr =>
    unfold SelfAwait at h
    rw [hin] at h
    exact absurd h hr
  | exit => exact .inr rfl
  | @callerAwait round relay n =>
    exact .inl ((selfAwait_congr (inbound_setNotify { p with relay } n round)).2 h)
  | callerCancel => exact .inl ((selfAwait_congr (inbound_setNotify _ _ _)).2 h)
  | _ => exact .inl h

end Process

section Link

variable [CloneMessage S] {c : Codec S} {L : Side → Endpoint} {s s' : LinkState S}

/-- No inbound stream waits for its own relay. -/
def NoSelfAwait (L : Side → Endpoint) (s : LinkState S) : Prop :=
  ∀ x, ¬ (s.procs x).SelfAwait (L x)

/-- A round that comes to the relay of its own bus finds the item channel without its receiving
half, or is a `flush_all` that finds `need_flush` clear or a `Flushed` stored; a `sync_all` only
comes there when the channel has lost its receiving half. -/
def Bypasses (L : Side → Endpoint) (s : LinkState S) : Side × LinkLabel S → Prop
  | (x, .act (.visit _)) => ∀ round r todo, (s.procs x).inbound = .visiting round (r :: todo) →
      r.id = (L x).relayId → (s.procs x).relay.rx = false ∨ match round with
        | .flushAll _ _ =>
          (s.procs x).wrapper.context.needFlush = false ∨ (s.procs x).flushed.permit = true
        | .syncAll => False
  | _ => True

/-- What a process keeps of its `synchronized`, which stores no permit. -/
structure SelfAwaitInv (L : Side → Endpoint) (s : LinkState S) : Prop where
  free : NoSelfAwait L s
  permit : ∀ x, (s.procs x).synchronized.permit = false

omit [CloneMessage S] in
theorem blocks_iff {p : Process S} {round : Round} (h : p.synchronized.permit = false) :
    p.Blocks round ↔ ¬ (p.relay.rx = false ∨ match round with
      | .flushAll _ _ => p.wrapper.context.needFlush = false ∨ p.flushed.permit = true
      | .syncAll => False) := by
  unfold Process.Blocks
  rcases round with _ | _ <;> simp [Process.needs, Process.notify, h]
  tauto

theorem selfAwaitInv_step {l : Side × LinkLabel S} (h : SelfAwaitInv L s)
    (hs : (link c L).step s l = some s') (hC : Bypasses L s l) : SelfAwaitInv L s' := by
  obtain ⟨x, l⟩ := l
  change s.step c L x l = some s' at hs
  have hmove : ∀ {p : Process S} {t : LinkState S}, t.procs = (s.set x p).procs →
      ¬ p.SelfAwait (L x) → p.synchronized.permit = false → SelfAwaitInv L t := by
    intro p t ht hp hn
    refine ⟨fun y => ?_, fun y => ?_⟩
    · rw [ht]
      exact LinkState.forall_set (P := fun y p => ¬ p.SelfAwait (L y)) h.free hp y
    · rw [ht]
      exact LinkState.forall_set (P := fun _ p => p.synchronized.permit = false) h.permit hn y
  cases l with
  | call kind msg =>
    cases hs
    exact hmove rfl (h.free x) (h.permit x)
  | act l =>
    obtain ⟨p, hp, rfl⟩ := Option.map_eq_some_iff.1 hs
    refine hmove rfl (fun hself => ?_) (Process.permit_act hp (h.permit x))
    rcases Process.selfAwait_act hp hself with h' | ⟨need, round, r, todo, rfl, hin, hr, hb⟩
    · exact h.free x h'
    · exact (blocks_iff (h.permit x)).1 hb (hC round r todo hin hr)
  | write =>
    rcases LinkState.write_cases hs with ⟨_, _, -, rfl⟩ | ⟨_, _, _, _, -, -, rfl⟩
    · exact hmove rfl (h.free x) (h.permit x)
    · exact hmove rfl (h.free x) (h.permit x)
  | read =>
    obtain ⟨pkt, origin, rest, -, hin, -, rfl⟩ := LinkState.read_cases hs
    exact hmove rfl (Process.not_selfAwait_read c pkt origin hin)
      (Process.permit_read c pkt origin (h.permit x))
  | lose n =>
    cases hs
    exact ⟨h.free, h.permit⟩

theorem bypasses_of_noSelfAwait {l : Side × LinkLabel S} (h : SelfAwaitInv L s)
    (hs : (link c L).step s l = some s') (h' : NoSelfAwait L s') : Bypasses L s l := by
  obtain ⟨x, l⟩ := l
  unfold Bypasses
  split
  · rename_i x' need heq
    cases heq
    intro round r todo hin hr
    obtain ⟨p, hp, rfl⟩ := Option.map_eq_some_iff.1 hs
    simp only [Process.act, Process.visit, hin, hr, if_true, Option.some.injEq] at hp
    subst hp
    by_contra hn
    refine h' x ?_
    rw [LinkState.procs_set, if_pos rfl]
    exact (Process.selfAwait_visitRelay hr).2 ((blocks_iff (h.permit x)).2 hn)
  · trivial

/-- The runs in which no inbound stream ever waits for its own relay are exactly those whose rounds
all bypass it. -/
theorem noSelfAwait_iff_bypasses (c : Codec S) (L : Side → Endpoint)
    (ls : List (Side × LinkLabel S)) :
    (link c L).Always (NoSelfAwait L) ls ↔ (link c L).Throughout (Bypasses L) ls :=
  Lts.always_iff_throughout (J := SelfAwaitInv L) ⟨fun _ => id, fun _ => rfl⟩ (fun _ h => h.free)
    (fun _ _ _ h hs hC => selfAwaitInv_step h hs hC)
    (fun _ _ _ h hs h' => bypasses_of_noSelfAwait h hs h') ls

/-- A stream that waits for its own relay does so until it is closed. -/
theorem selfAwait_stays {x : Side} {l : Side × LinkLabel S} (h : (s.procs x).SelfAwait (L x))
    (hs : (link c L).step s l = some s') (hl : l ≠ (x, .act .exit)) :
    (s'.procs x).SelfAwait (L x) := by
  obtain ⟨y, l⟩ := l
  change s.step c L y l = some s' at hs
  have hset : ∀ {p : Process S}, (y = x → p.SelfAwait (L x)) →
      ((s.set y p).procs x).SelfAwait (L x) := by
    intro p hp
    rw [LinkState.procs_set]
    split_ifs with hxy
    · exact hp hxy.symm
    · exact h
  cases l with
  | call kind msg =>
    cases hs
    exact hset fun hy => hy ▸ h
  | act l =>
    obtain ⟨p, hp, rfl⟩ := Option.map_eq_some_iff.1 hs
    refine hset fun hy => ?_
    subst hy
    exact (Process.selfAwait_act_stays hp h).resolve_right fun he => hl (he ▸ rfl)
  | write =>
    rcases LinkState.write_cases hs with ⟨_, _, -, rfl⟩ | ⟨_, _, _, _, -, -, rfl⟩
    · exact hset fun hy => hy ▸ h
    · exact hset fun hy => hy ▸ h
  | read =>
    obtain ⟨pkt, origin, rest, -, hin, -, rfl⟩ := LinkState.read_cases hs
    refine hset fun hy => ?_
    subst hy
    exact absurd h (Process.not_selfAwait_of_inbound (.inl hin))
  | lose n =>
    cases hs
    exact h

end Link

/-- A `Synchronize` frame, and a `Flush` frame once a message has gone out, each make the stream
wait for its own relay. -/
theorem inbound_awaits_itself :
    (¬ (link Flag.codec fun _ => .flag).Always (NoSelfAwait fun _ => .flag)
      [(.left, .act .init), (.right, .act .init), (.left, .act (.callerAwait .syncAll)),
        (.left, .write), (.right, .read), (.right, .act (.visit true))])
    ∧ ¬ (link Flag.codec fun _ => .flag).Always (NoSelfAwait fun _ => .flag)
      [(.left, .act .init), (.right, .act .init), (.right, .call .send ⟨true⟩),
        (.right, .act (.start 0)), (.right, .act (.deliver 0 0 1)),
        (.left, .act (.callerAwait (.flushAll 0 false))), (.left, .write), (.right, .read),
        (.right, .act (.visit true))] := by
  constructor
  · intro h
    exact h.last rfl .right rfl
  · intro h
    exact h.last rfl .right rfl

end MessageBus
