import MessageBus.Proofs.RelayCounters
import MessageBus.Relay

/-!
# What a peer can do to a relay's counters

A reservation keeps its tag's counter within the limit of 16, and a decrement by no more than the
counter keeps it from wrapping. So the counters stay in range exactly as long as no answer and no
dropped permit takes off more than is there.
-/

namespace MessageBus

namespace RelayContext

variable {c : RelayContext} {tt t : TypeTag}

/-- Every counter has the limit it was made with. -/
def Limited (c : RelayContext) : Prop := ∀ tt r, c.receivers tt = some r → r.limit = 16

theorem limited_entry (h : c.Limited) (tt : TypeTag) : (c.entry tt).Limited := by
  unfold entry
  split_ifs
  · exact h
  · intro t r hr
    dsimp only at hr
    by_cases ht : t = tt
    · subst ht
      rw [Function.update_self] at hr
      cases hr
      rfl
    · rw [Function.update_of_ne ht] at hr
      exact h t r hr

theorem limited_modify (h : c.Limited) (tt : TypeTag) (f : UInt64 → UInt64) :
    (c.modify tt f).Limited := by
  intro t r hr
  by_cases ht : t = tt
  · subst ht
    simp only [modify, Function.update_self, Option.map_eq_some_iff] at hr
    obtain ⟨r, hr, rfl⟩ := hr
    exact h t r hr
  · simp only [modify, Function.update_of_ne ht] at hr
    exact h t r hr

theorem limited_tryReserve (h : c.Limited) (tt : TypeTag) : (c.tryReserve tt).1.Limited := by
  have hentry := limited_entry h tt
  unfold tryReserve
  dsimp only
  split
  · split_ifs
    · exact limited_modify hentry tt (· + 1)
    · exact hentry
  · exact hentry

/-- Only a counter below the limit gives a permit. -/
theorem lt_of_tryReserve (h : c.Limited) (hgot : (c.tryReserve tt).2 = true) :
    c.processing tt < 16 := by
  obtain ⟨r, hr⟩ := receivers_entry c tt
  have hlimit := limited_entry h tt tt r hr
  rw [← processing_entry c tt tt, processing_of_some hr]
  simp only [tryReserve, hr] at hgot
  split_ifs at hgot with hlt
  · rw [hlimit] at hlt
    exact UInt64.lt_iff_toNat_lt.1 hlt

end RelayContext

namespace ExposedState

variable {B : Type} {s s' : ExposedState B}

/-- The counters are in range and have not wrapped. -/
def InRange (s : ExposedState B) : Prop := ∀ tt,
  s.relay.wrapper.context.processing tt ≤ 16
    ∧ s.balance tt = s.relay.wrapper.context.processing tt

structure Inv (s : ExposedState B) : Prop where
  inRange : s.InRange
  limited : s.relay.wrapper.context.Limited

/-- What takes `n` off the counter of a tag, if it has one, finds `n` there. -/
def Covered (s : ExposedState B) (tt : TypeTag) (n : ℕ) : Prop :=
  (s.relay.wrapper.context.receivers tt).isSome → n ≤ s.relay.wrapper.context.processing tt

theorem credit_of_some {tt : TypeTag} {r : RelayReceiverContext} {n : ℤ}
    (hr : s.relay.wrapper.context.receivers tt = some r) (t : TypeTag) :
    s.credit tt n t = s.balance t + if t = tt then n else 0 := by
  unfold credit
  rw [hr, Option.isSome_some, if_pos rfl]
  by_cases ht : t = tt
  · subst ht
    simp
  · simp [ht]

/-- A decrement keeps the counters in range exactly if it is covered. -/
theorem inRange_decr (h : s.InRange) {relay : RelayState B} {tt : TypeTag} {n : UInt64}
    (hc : relay.wrapper.context = s.relay.wrapper.context.modify tt (· - n)) :
    InRange ⟨relay, s.credit tt (-n.toNat)⟩ ↔ s.Covered tt n.toNat := by
  unfold InRange Covered
  dsimp only
  rw [hc]
  rcases hr : s.relay.wrapper.context.receivers tt with _ | r
  · have hcredit : s.credit tt (-n.toNat) = s.balance := by simp [credit, hr]
    rw [RelayContext.modify_of_none _ hr, hcredit]
    exact iff_of_true h (by simp)
  simp only [credit_of_some hr, Option.isSome_some, forall_const]
  constructor
  · intro h'
    have hbal := (h' tt).2
    rw [if_pos rfl, (h tt).2] at hbal
    omega
  · intro hn t
    have hsub := RelayContext.processing_sub (t := t) hr hn
    obtain ⟨hle, hbal⟩ := h t
    split_ifs at hsub ⊢ <;> omega

/-- An answer, and a permit that is dropped, is covered. -/
def Fair [Message B] (s : ExposedState B) : ExposedLabel B → Prop
  | .sender (.dropPermit tt) => s.Covered tt 1
  | .peer (.response _ (.ok bm)) => s.Covered (Message.typeTag bm) 1
  | .peer (.batchComplete tt n) => s.Covered tt n.toNat
  | _ => True

theorem inRange_tryReserve [Message B] (h : s.Inv) (tt : TypeTag) {relay : RelayState B}
    (hc : relay.wrapper.context = (s.relay.wrapper.context.tryReserve tt).1) :
    InRange ⟨relay, s.senderBalance (.tryReserve tt)⟩ := by
  intro t
  have hp : (s.relay.wrapper.context.tryReserve tt).1.processing t = _ :=
    RelayContext.processing_tryReserve
  obtain ⟨hle, hbal⟩ := h.inRange t
  unfold senderBalance
  dsimp only
  rw [hc, hp]
  by_cases hgot : (s.relay.wrapper.context.tryReserve tt).2 = true
  · have hlt := RelayContext.lt_of_tryReserve h.limited hgot
    rw [if_pos hgot, if_pos hgot, List.count_singleton]
    by_cases ht : t = tt
    · subst ht
      rw [Function.update_self, beq_self_eq_true, if_pos rfl]
      omega
    · rw [Function.update_of_ne ht]
      simpa [Ne.symm ht] using ⟨hle, hbal⟩
  · rw [if_neg hgot, if_neg hgot]
    exact ⟨hle, hbal⟩

variable [Message B]

/-- A peer's event keeps the counters in range exactly if it is covered. -/
theorem inRange_peer (h : s.InRange) (ev : Event B GenericError) :
    InRange ⟨s.relay.handle ev, s.peerBalance ev⟩ ↔ s.Fair (.peer ev) := by
  have hsame : ∀ ev, (∀ tt, (s.relay.handle ev).wrapper.context.processing tt
      = s.relay.wrapper.context.processing tt) → InRange ⟨s.relay.handle ev, s.balance⟩ := by
    intro ev hev tt
    dsimp only
    rw [hev tt]
    exact h tt
  cases ev with
  | response mid resp =>
    rcases resp with err | bm
    · exact iff_of_true (hsame _ fun tt => by rw [RelayState.handle_error]) trivial
    · exact inRange_decr (n := 1) h (RelayState.handle_ok _ _ _)
  | batchComplete tt n => exact inRange_decr h rfl
  | stats => exact iff_of_true (hsame _ fun tt => rfl) trivial
  | _ => exact iff_of_true (hsame _ (RelayState.handle_fromPeer _ rfl)) trivial

theorem limited_peer (h : s.relay.wrapper.context.Limited) (ev : Event B GenericError) :
    (s.relay.handle ev).wrapper.context.Limited := by
  cases ev with
  | response mid resp =>
    rcases resp with err | bm
    · rwa [RelayState.handle_error]
    · rw [RelayState.handle_ok]
      exact RelayContext.limited_modify h _ _
  | batchComplete tt n => exact RelayContext.limited_modify h tt (· - n)
  | _ => exact h

/-- A step of a sender. -/
theorem inRange_sender (h : s.Inv) {l : RelayLabel B} (hl : l.reserves = true)
    {relay : RelayState B} (hs : s.relay.step l = some relay) : relay.wrapper.context.Limited
      ∧ (InRange ⟨relay, s.senderBalance l⟩ ↔ s.Fair (.sender l)) := by
  cases l with
  | tryReserve tt =>
    cases hs
    exact ⟨RelayContext.limited_tryReserve h.limited tt,
      iff_of_true (inRange_tryReserve h tt rfl) trivial⟩
  | reserveNotify tt =>
    cases hs
    refine ⟨RelayContext.limited_entry h.limited tt, iff_of_true (fun t => ?_) trivial⟩
    have hentry := RelayContext.processing_entry s.relay.wrapper.context tt t
    simp only [RelayContext.reserveNotify, hentry]
    exact h.inRange t
  | dropPermit tt =>
    simp only [RelayState.step] at hs
    split_ifs at hs
    cases hs
    exact ⟨RelayContext.limited_modify h.limited tt (· - 1), inRange_decr (n := 1) h.inRange rfl⟩
  | send m accepted =>
    simp only [RelayState.step] at hs
    split_ifs at hs
    cases hs
    exact ⟨h.limited, iff_of_true h.inRange trivial⟩
  | listen key =>
    obtain ⟨waiters, -, rfl⟩ := Option.map_eq_some_iff.1 hs
    exact ⟨h.limited, iff_of_true h.inRange trivial⟩
  | cancel r =>
    simp only [RelayState.step] at hs
    split_ifs at hs
    cases hs
    exact ⟨h.limited, iff_of_true h.inRange trivial⟩
  | _ => cases hl

theorem inRange_step {l : ExposedLabel B} (h : s.Inv) (hs : (exposedRelay B).step s l = some s') :
    s'.relay.wrapper.context.Limited ∧ (s'.InRange ↔ s.Fair l) := by
  change s.step l = some s' at hs
  cases l with
  | sender l =>
    simp only [step] at hs
    split_ifs at hs with hl
    obtain ⟨relay, hrelay, rfl⟩ := Option.map_eq_some_iff.1 hs
    exact inRange_sender h hl hrelay
  | peer ev =>
    simp only [step] at hs
    split_ifs at hs
    cases hs
    exact ⟨limited_peer h.limited ev, inRange_peer h.inRange ev⟩

/-- The runs that keep every counter in range, unwrapped, are exactly those in which no event of the
peer and no dropped permit takes off more than its tag's counter has. -/
theorem inRange_iff_fair (ls : List (ExposedLabel B)) :
    (exposedRelay B).Always InRange ls ↔ (exposedRelay B).Throughout Fair ls := by
  have hstart : (start : ExposedState B).Inv :=
    ⟨fun tt => ⟨Nat.zero_le _, rfl⟩, fun tt r hr => by cases hr⟩
  refine Lts.always_iff_throughout (J := Inv) hstart (fun _ h => h.inRange)
    (fun s l s' h hs hC => ?_) (fun s l s' h hs hP => ?_) ls
  · obtain ⟨hlim, hiff⟩ := inRange_step h hs
    exact ⟨hiff.2 hC, hlim⟩
  · exact (inRange_step h hs).2.1 hP

end ExposedState

/-- A peer acknowledges one message twice. Messages are their tags here. -/
theorem double_ack_wraps : ¬ (@exposedRelay TypeTag ⟨id⟩).Always ExposedState.InRange
    [.sender (.tryReserve "T"), .sender (.send ⟨1, "T", false⟩ true),
      .peer (.batchComplete "T" 1), .peer (.batchComplete "T" 1)] := by
  intro h
  have := (h.last rfl "T").1
  revert this
  decide

end MessageBus
