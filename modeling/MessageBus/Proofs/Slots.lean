import MessageBus.Proofs.RelayCounters
import MessageBus.Proofs.RoundTrip
import MessageBus.Slots

/-!
# Which sends give their slot back

A refused send keeps the slot it was given, so the slots are what they should be as long as every
send is taken. Only a `force_send` to a relay that counts no message of the tag yet has no slot to
give back.
-/

namespace MessageBus

variable {S : Type}

namespace SlotReceiver

variable {r r' : SlotReceiver S} {tt t : TypeTag}

theorem slots_modify (context : RelayContext) (inner : TcpRelay S) (f : UInt64 → UInt64) :
    slots (relay (context.modify tt f) inner) t
      = if counts (relay context inner) tt t then f (slots (relay context inner) t)
        else slots (relay context inner) t := by
  unfold slots counts RelayContext.modify
  by_cases ht : t = tt
  · subst ht
    rcases hc : context.receivers t with _ | c <;> simp [hc]
  · simp [ht]

theorem slots_entry (context : RelayContext) (inner : TcpRelay S) :
    slots (relay (context.entry tt) inner) t = slots (relay context inner) t := by
  unfold RelayContext.entry
  split_ifs with h
  · rfl
  · by_cases ht : t = tt
    · subst ht
      have : context.receivers t = none := by simpa using h
      simp [slots, this, RelayReceiverContext.new]
    · simp [slots, ht]

theorem counts_modify (context : RelayContext) (inner : TcpRelay S) (f : UInt64 → UInt64)
    (tt' : TypeTag) :
    counts (relay (context.modify tt f) inner) tt' t = counts (relay context inner) tt' t := by
  by_cases ht : tt' = tt
  · subst ht
    simp [counts, RelayContext.modify]
  · simp [counts, RelayContext.modify, ht]

/-- A counter that is there stays there. -/
theorem counts_entry (context : RelayContext) (inner : TcpRelay S)
    (h : counts (relay context inner) t t = true) :
    counts (relay (context.entry tt) inner) t t = true := by
  unfold RelayContext.entry
  split_ifs
  · exact h
  · by_cases ht : t = tt
    · subst ht
      simp [counts]
    · simpa [counts, ht] using h

theorem slots_increment : (r.incrementProcessing tt).slots t
    = if r.counts tt t then r.slots t + 1 else r.slots t := by
  cases r with
  | typed context closed rx => exact Int64.toUInt64_add _ _
  | relay context inner => exact slots_modify context inner _

theorem slots_drop : (r.permitDrop tt).slots t
    = if r.counts tt t then r.slots t + -1 else r.slots t := by
  rw [← UInt64.sub_eq_add_neg]
  cases r with
  | typed context closed rx => exact Int64.toUInt64_sub _ _
  | relay context inner => exact slots_modify context inner _

theorem tryReserve_relay {context : RelayContext} {inner : TcpRelay S}
    (h : (relay context inner).tryReserve tt = some r') :
    r' = relay ((context.entry tt).modify tt (· + 1)) inner := by
  obtain ⟨c, hc⟩ := RelayContext.receivers_entry context tt
  simp only [tryReserve, RelayContext.tryReserve, hc] at h
  split_ifs at h with hlt _ hfalse
  · cases h
    rfl
  · cases hfalse

theorem slots_reserve (h : r.tryReserve tt = some r') :
    r'.slots t = if r'.counts tt t then r.slots t + 1 else r.slots t := by
  cases r with
  | typed context closed rx =>
    obtain ⟨context', hc, rfl⟩ := Option.map_eq_some_iff.1 h
    unfold ReceiverContext.tryReserve at hc
    split_ifs at hc
    cases hc
    exact Int64.toUInt64_add _ _
  | relay context inner =>
    rw [tryReserve_relay h, slots_modify, counts_modify, slots_entry]

/-- What a permit was given for is counted from then on. -/
theorem counts_reserve (h : r.tryReserve tt = some r') :
    r'.counts tt tt = true ∧ ∀ t, r.counts t t = true → r'.counts t t = true := by
  cases r with
  | typed context closed rx =>
    obtain ⟨context', -, rfl⟩ := Option.map_eq_some_iff.1 h
    exact ⟨rfl, fun _ _ => rfl⟩
  | relay context inner =>
    rw [tryReserve_relay h]
    simp only [counts_modify]
    obtain ⟨c, hc⟩ := RelayContext.receivers_entry context tt
    exact ⟨by simp [counts, hc], fun t ht => counts_entry context inner ht⟩

theorem counts_increment (tt' : TypeTag) : (r.incrementProcessing tt).counts tt' t
    = r.counts tt' t := by
  cases r with
  | typed => rfl
  | relay context inner => exact counts_modify context inner _ _

theorem counts_drop (tt' : TypeTag) : (r.permitDrop tt).counts tt' t = r.counts tt' t := by
  cases r with
  | typed => rfl
  | relay context inner => exact counts_modify context inner _ _

@[simp] theorem slots_setNeedFlush : r.setNeedFlush.slots t = r.slots t := by
  cases r <;> rfl

@[simp] theorem counts_setNeedFlush : r.setNeedFlush.counts tt t = r.counts tt t := by
  cases r <;> rfl

@[simp] theorem slots_shut : r.shut.slots t = r.slots t := by
  cases r <;> rfl

@[simp] theorem counts_shut : r.shut.counts tt t = r.counts tt t := by
  cases r <;> rfl

variable [SharedMessage S] {isM : S → Bool} {ep : EntryPoint} {mid : UInt64} {msg : S} {req : Bool}

/-- The receiver takes the message, or the call raised no counter; a typed send of another type
panics. -/
def Takes (isM : S → Bool) (ep : EntryPoint) (r : SlotReceiver S) (msg : S) : Prop :=
  match r with
  | typed _ closed _ => if isM msg then closed = false else ep ≠ .sendBoxed
  | relay context inner =>
    (SharedMessage.isShared msg = true ∧ inner.rx = true)
      ∨ (ep = .forceSend ∧ context.receivers (Message.typeTag msg) = none)

/-- The counters once the call has raised its own, if it does. -/
def raised (ep : EntryPoint) (r : SlotReceiver S) (tt : TypeTag) : SlotReceiver S :=
  if ep = .forceSend then r.incrementProcessing tt else r

theorem slots_sendInner {boxed : Bool} (h : sendInner isM boxed r mid msg req = some (.ok r')) :
    (∀ t, r'.slots t = r.slots t) ∧ ∀ tt t, r'.counts tt t = r.counts tt t := by
  cases r with
  | typed context closed rx =>
    simp only [sendInner] at h
    split_ifs at h
    · cases h
    · cases h
      exact ⟨fun _ => rfl, fun _ _ => rfl⟩
    · cases h
  | relay context inner =>
    simp only [sendInner, Option.some.injEq] at h
    rcases hi : inner.trySendMsg mid msg req with err | inner' <;> rw [hi] at h <;> cases h
    exact ⟨fun _ => rfl, fun _ _ => rfl⟩

/-- A call raises what it raises, and gives nothing back. -/
theorem call_eq_some {res : Except (Error S GenericError) Unit}
    (h : r.call isM ep mid msg req = some (r', res)) :
    (∀ t, r'.slots t = (r.raised ep (Message.typeTag msg)).slots t)
      ∧ ∀ tt t, r'.counts tt t = r.counts tt t := by
  have hraised : ∀ tt t, (r.raised ep (Message.typeTag msg)).counts tt t = r.counts tt t := by
    intro tt t
    unfold raised
    split_ifs
    · exact counts_increment tt
    · rfl
  obtain ⟨out, hout, hres⟩ := Option.map_eq_some_iff.1 h
  rcases out with err | r''
  · cases hres
    exact ⟨fun _ => slots_setNeedFlush, fun tt t => counts_setNeedFlush.trans (hraised tt t)⟩
  · cases hres
    obtain ⟨hs, hc⟩ := slots_sendInner hout
    exact ⟨fun t => slots_setNeedFlush.trans (hs t),
      fun tt t => counts_setNeedFlush.trans ((hc tt t).trans (hraised tt t))⟩

/-- A call that is not taken is refused, and has raised a counter if it takes no permit. -/
theorem refused_of_not_takes (h : ¬ Takes isM ep r msg) (mid : UInt64) (req : Bool) :
    (∃ r' err, r.call isM ep mid msg req = some (r', .error err))
      ∧ (ep = .forceSend → r.counts (Message.typeTag msg) (Message.typeTag msg) = true) := by
  cases r with
  | typed context closed rx =>
    refine ⟨?_, fun _ => rfl⟩
    by_cases hm : isM msg = true
    · simp only [Takes, hm, if_true, Bool.not_eq_false] at h
      cases ep <;> simp [call, sendInner, incrementProcessing, hm, h]
    · simp only [Takes, hm, Bool.false_eq_true, if_false, ne_eq, not_not] at h
      subst h
      simp [call, sendInner, hm]
  | relay context inner =>
    simp only [Takes, not_or, not_and] at h
    obtain ⟨htake, hnone⟩ := h
    have herr : inner.trySendMsg mid msg req = .error (.tryAgain msg) := by
      unfold TcpRelay.trySendMsg TcpRelay.sendItem
      by_cases hs : SharedMessage.isShared msg = true
      · simp [hs, htake hs]
      · simp [hs]
    refine ⟨?_, fun hep => ?_⟩
    · cases ep <;> simp [call, sendInner, incrementProcessing, herr, Except.map]
    · simpa [counts, Option.isSome_iff_ne_none] using hnone hep

/-- A call that is taken is not refused, or there was no counter to raise. -/
theorem not_counts_of_takes (h : Takes isM ep r msg) {err : Error S GenericError}
    (hc : r.call isM ep mid msg req = some (r', .error err)) (t : TypeTag) :
    ep = .forceSend ∧ r.counts (Message.typeTag msg) t = false := by
  cases r with
  | typed context closed rx =>
    by_cases hm : isM msg = true
    · simp only [Takes, hm, if_true] at h
      cases ep <;> simp [call, sendInner, incrementProcessing, hm, h] at hc
    · simp only [Takes, hm, Bool.false_eq_true, if_false] at h
      cases ep <;> simp [call, sendInner, incrementProcessing, hm] at hc h
  | relay context inner =>
    obtain ⟨hs, hrx⟩ | ⟨hep, hnone⟩ := h
    · cases ep <;> simp [call, sendInner, incrementProcessing, TcpRelay.trySendMsg,
        TcpRelay.sendItem, hs, hrx, Except.map] at hc
    · exact ⟨hep, by simp [counts, hnone]⟩

theorem add_one_ne (n : UInt64) : n + 1 ≠ n := by
  simp

theorem add_neg_one_ne (n : UInt64) : n + -1 ≠ n := by
  simp

/-- A refused call leaves the counters as they were before it took or raised its slot exactly where
it is taken, or has no counter to raise. -/
theorem gives_back_iff {r₁ : SlotReceiver S}
    (hr : r.reserved ep (Message.typeTag msg) = some r₁) :
    (∀ mid req r' err, r₁.call isM ep mid msg req = some (r', .error err) →
      ∀ t, r'.slots t = r.slots t) ↔ Takes isM ep r₁ msg := by
  constructor
  · intro h
    by_contra hn
    obtain ⟨⟨r', err, hcall⟩, hcounts⟩ := refused_of_not_takes hn 0 false
    have hback := h 0 false r' err hcall (Message.typeTag msg)
    rw [(call_eq_some hcall).1] at hback
    unfold reserved at hr
    unfold raised at hback
    by_cases hep : ep = .forceSend
    · simp only [hep, if_true, Option.some.injEq] at hr hback
      rw [hr, slots_increment, if_pos (hcounts hep)] at hback
      exact add_one_ne _ hback
    · simp only [hep, if_false] at hr hback
      rw [slots_reserve hr, if_pos (counts_reserve hr).1] at hback
      exact add_one_ne _ hback
  · intro h mid req r' err hcall t
    obtain ⟨hep, hcounts⟩ := not_counts_of_takes h hcall t
    unfold reserved at hr
    simp only [hep, if_true, Option.some.injEq] at hr
    rw [(call_eq_some hcall).1, raised, if_pos hep, slots_increment, hcounts, hr]
    rfl

end SlotReceiver

namespace SlotState

variable [SharedMessage S] {isM : S → Bool} {r : SlotReceiver S} {s s' : SlotState S}
  {l : SlotLabel S}

/-- The slots are those taken and not given back, as if refused sends gave theirs back. -/
def Fair (s : SlotState S) : Prop := ∀ t, s.receiver.slots t = s.fair t

/-- A call is taken, or has no counter to raise. -/
def Taken (isM : S → Bool) (s : SlotState S) : SlotLabel S → Prop
  | .call ep _ msg _ => s.receiver.Takes isM ep msg
  | _ => True

structure SlotInv (s : SlotState S) : Prop where
  fair : s.Fair
  counted : ∀ tt ∈ s.permits, s.receiver.counts tt tt = true

theorem call_step {ep : EntryPoint} {mid : UInt64} {msg : S} {req : Bool}
    (hs : (slotRuns isM r).step s (.call ep mid msg req) = some s') :
    (ep = .forceSend ∨ Message.typeTag msg ∈ s.permits)
      ∧ ∃ r' res, s.receiver.call isM ep mid msg req = some (r', res)
        ∧ s' = match res with
          | .ok _ =>
            if ep = .forceSend then ⟨r', s.permits, s.credit s.receiver (Message.typeTag msg) 1⟩
            else ⟨r', s.permits.erase (Message.typeTag msg), s.fair⟩
          | .error _ =>
            if ep = .forceSend then ⟨r', s.permits, s.fair⟩
            else ⟨r', s.permits.erase (Message.typeTag msg),
              s.credit s.receiver (Message.typeTag msg) (-1)⟩ := by
  obtain ⟨hallowed, hs⟩ := Option.ite_none_right_eq_some.1 hs
  obtain ⟨⟨r', res⟩, hcall, rfl⟩ := Option.map_eq_some_iff.1 hs
  refine ⟨hallowed, r', res, hcall, ?_⟩
  cases res <;> rfl

omit [SharedMessage S] in
/-- The counters and the account change alike. -/
theorem SlotInv.credit (h : SlotInv s) {r' r'' : SlotReceiver S} {tt : TypeTag} {n : UInt64}
    (hr : ∀ t, r'.slots t = if r''.counts tt t then s.receiver.slots t + n else s.receiver.slots t)
    (hcounts : ∀ t, s.receiver.counts t t = true → r'.counts t t = true) {permits : List TypeTag}
    (hp : ∀ t ∈ permits, t ∈ s.permits ∨ r'.counts t t = true) :
    SlotInv ⟨r', permits, s.credit r'' tt n⟩ := by
  refine ⟨fun t => ?_, fun t ht => (hp t ht).elim (fun ht => hcounts t (h.counted t ht)) id⟩
  show r'.slots t = s.credit r'' tt n t
  rw [hr, h.fair t]
  rfl

theorem slotInv_step (h : SlotInv s) (hs : (slotRuns isM r).step s l = some s')
    (hC : s.Taken isM l) : SlotInv s' := by
  cases l with
  | reserve tt =>
    obtain ⟨r', hr, rfl⟩ := Option.map_eq_some_iff.1 hs
    obtain ⟨hnew, hold⟩ := SlotReceiver.counts_reserve hr
    refine h.credit (fun t => SlotReceiver.slots_reserve hr) hold fun t ht => ?_
    rcases List.mem_append.1 ht with ht | ht
    · exact .inl ht
    · exact .inr (List.mem_singleton.1 ht ▸ hnew)
  | dropPermit tt =>
    change (if tt ∈ s.permits then _ else none) = some s' at hs
    split_ifs at hs
    cases hs
    refine h.credit (fun t => SlotReceiver.slots_drop) (fun t ht => ?_)
      fun t ht => .inl (List.mem_of_mem_erase ht)
    rw [SlotReceiver.counts_drop]
    exact ht
  | call ep mid msg req =>
    obtain ⟨-, r', res, hcall, rfl⟩ := call_step hs
    obtain ⟨hslots, hcounts⟩ := SlotReceiver.call_eq_some hcall
    have hcounted : ∀ t ∈ s.permits, r'.counts t t = true := fun t ht => by
      rw [hcounts]
      exact h.counted t ht
    rcases res with err | _
    · obtain ⟨hep, -⟩ := SlotReceiver.not_counts_of_takes hC hcall (Message.typeTag msg)
      simp only [hep, if_true]
      refine ⟨fun t => ?_, hcounted⟩
      show r'.slots t = s.fair t
      rw [hslots, SlotReceiver.raised, if_pos hep, SlotReceiver.slots_increment,
        (SlotReceiver.not_counts_of_takes hC hcall t).2, ← h.fair t]
      rfl
    · dsimp only
      split_ifs with hep
      · refine h.credit (fun t => ?_) (fun t ht => by rw [hcounts]; exact ht) fun t ht => .inl ht
        rw [hslots, SlotReceiver.raised, if_pos hep, SlotReceiver.slots_increment]
      · refine ⟨fun t => ?_, fun t ht => hcounted t (List.mem_of_mem_erase ht)⟩
        show r'.slots t = s.fair t
        rw [hslots, SlotReceiver.raised, if_neg hep, ← h.fair t]
  | answer tt =>
    cases hs
    refine h.credit (fun t => SlotReceiver.slots_drop) (fun t ht => ?_) fun t ht => .inl ht
    exact (SlotReceiver.counts_drop t).trans ht
  | shut =>
    cases hs
    refine ⟨fun t => ?_, fun t ht => ?_⟩
    · show s.receiver.shut.slots t = s.fair t
      rw [SlotReceiver.slots_shut]
      exact h.fair t
    · show s.receiver.shut.counts t t = true
      rw [SlotReceiver.counts_shut]
      exact h.counted t ht

/-- A call that is not taken keeps a slot that the account has given back. -/
theorem taken_of_fair (h : SlotInv s) (hs : (slotRuns isM r).step s l = some s')
    (h' : s'.Fair) : s.Taken isM l := by
  cases l with
  | call ep mid msg req =>
    obtain ⟨hallowed, r', res, hcall, rfl⟩ := call_step hs
    by_contra hn
    obtain ⟨⟨r'', err, hcall'⟩, hcounts⟩ := SlotReceiver.refused_of_not_takes hn mid req
    rw [hcall] at hcall'
    cases hcall'
    have hslots := (SlotReceiver.call_eq_some hcall).1 (Message.typeTag msg)
    have hfair := h.fair (Message.typeTag msg)
    have hfair' := h' (Message.typeTag msg)
    unfold SlotReceiver.raised at hslots
    by_cases hep : ep = .forceSend
    · simp only [hep, if_true] at hslots hfair'
      rw [hslots, SlotReceiver.slots_increment, if_pos (hcounts hep), hfair] at hfair'
      exact SlotReceiver.add_one_ne _ hfair'
    · have hcounted := h.counted _ (hallowed.resolve_left hep)
      simp only [hep, if_false] at hslots hfair'
      rw [hslots, hfair] at hfair'
      simp only [credit, hcounted, if_true] at hfair'
      exact SlotReceiver.add_neg_one_ne _ hfair'.symm
  | _ => trivial

end SlotState

/-- A call gives back what it took exactly where it is taken or had no counter to raise, and the
runs in which no slot is ever lost are those all of whose calls are. -/
theorem slots_back_iff (isM : S → Bool) [SharedMessage S] :
    (∀ ep (msg : S) r r₁, SlotReceiver.reserved ep r (Message.typeTag msg) = some r₁ →
      ((∀ mid req r' err, r₁.call isM ep mid msg req = some (r', .error err) →
        ∀ t, r'.slots t = r.slots t) ↔ r₁.Takes isM ep msg))
    ∧ ∀ r ls, (slotRuns isM r).Always SlotState.Fair ls
      ↔ (slotRuns isM r).Throughout (SlotState.Taken isM) ls :=
  ⟨fun _ _ _ _ => SlotReceiver.gives_back_iff, fun _ =>
    Lts.always_iff_throughout (J := SlotState.SlotInv) ⟨fun _ => rfl, List.forall_mem_nil _⟩
      (fun _ h => h.fair) (fun _ _ _ => SlotState.slotInv_step)
      fun _ _ _ => SlotState.taken_of_fair⟩

/-- A local receiver with one slot, its queue open or closed. -/
def SlotReceiver.one (closed : Bool) : SlotReceiver Flag := .typed (.new 1 true) closed []

/-- The open queue takes the message, and a refused `force_send` to a new relay raised nothing. -/
theorem slots_back_open :
    (∀ mid req r' err, ((SlotReceiver.one false).incrementProcessing "app::Flag").call
        (fun _ => true) .send mid (⟨true⟩ : Flag) req = some (r', .error err) →
      ∀ t, r'.slots t = (SlotReceiver.one false).slots t)
    ∧ (slotRuns (fun _ => true) (.relay .new .new : SlotReceiver Flag)).Always SlotState.Fair
      [.shut, .call .forceSend 1 ⟨true⟩ false] := by
  have h := slots_back_iff (fun _ : Flag => true)
  refine ⟨(h.1 .send ⟨true⟩ (.one false) _ rfl).2 rfl, (h.2 _ _).2 ?_⟩
  intro s hs
  cases hs
  exact ⟨trivial, fun _ _ => ⟨.inr ⟨rfl, rfl⟩, trivial⟩⟩

/-- The closed queue refuses the message; its slot is taken for good, and was the only one. -/
theorem refused_send_keeps_slot :
    (¬ ∀ ep (msg : Flag) r r₁, SlotReceiver.reserved ep r (Message.typeTag msg) = some r₁ →
      ∀ mid req r' err, r₁.call (fun _ => true) ep mid msg req = some (r', .error err) →
        ∀ t, r'.slots t = r.slots t)
    ∧ ∃ r₁ r', (SlotReceiver.one true).tryReserve "app::Flag" = some r₁
      ∧ r₁.call (fun _ => true) .send 1 ⟨true⟩ false
        = some (r', .error (.sendError (.closed ⟨true⟩)))
      ∧ r'.tryReserve "app::Flag" = none := by
  refine ⟨fun h => ?_, _, _, rfl, rfl, rfl⟩
  have := h .send ⟨true⟩ (.one true) _ rfl 1 false _ _ rfl "app::Flag"
  cases this

end MessageBus
