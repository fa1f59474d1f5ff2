import MessageBus.Relay
import Mathlib.Data.List.Perm.Basic

/-!
# A relay's counters

A tag's counter should be the permits out for it plus its messages in flight. Each step is compared
on both sides: what it does to the counter (`processing_*`) and what it does to the messages and
permits it stands for (`outstanding_*`). They agree unless the step is one `Charged` leaves out.
-/

namespace MessageBus

namespace RelayContext

variable (c : RelayContext) (tt t : TypeTag)

theorem processing_entry : (c.entry tt).processing t = c.processing t := by
  unfold entry
  split_ifs with h
  · rfl
  · simp only [Bool.not_eq_true, Option.isSome_eq_false_iff, Option.isNone_iff_eq_none] at h
    unfold processing
    by_cases ht : t = tt
    · subst ht
      simp [h, RelayReceiverContext.new]
    · simp [ht]

theorem receivers_entry : ∃ r, (c.entry tt).receivers tt = some r := by
  unfold entry
  split_ifs with h
  · exact Option.isSome_iff_exists.1 h
  · exact ⟨_, Function.update_self ..⟩

variable {c tt t}

theorem processing_of_some {r : RelayReceiverContext} (h : c.receivers tt = some r) :
    c.processing tt = r.processing.toNat := by
  simp [processing, h]

theorem processing_of_none (h : c.receivers tt = none) : c.processing tt = 0 := by
  simp [processing, h]

theorem processing_modify_of_ne (f : UInt64 → UInt64) (ht : t ≠ tt) :
    (c.modify tt f).processing t = c.processing t := by
  simp [modify, processing, ht]

theorem processing_modify_self (f : UInt64 → UInt64) {r : RelayReceiverContext}
    (h : c.receivers tt = some r) : (c.modify tt f).processing tt = (f r.processing).toNat := by
  simp [modify, processing, h]

theorem modify_of_none (f : UInt64 → UInt64) (h : c.receivers tt = none) : c.modify tt f = c := by
  unfold modify
  rw [h, Option.map_none, ← h, Function.update_eq_self]

theorem receivers_of_processing (h : 0 < c.processing tt) :
    ∃ r, c.receivers tt = some r ∧ 0 < r.processing.toNat := by
  rcases hr : c.receivers tt with _ | r
  · rw [processing_of_none hr] at h
    omega
  · exact ⟨r, rfl, processing_of_some hr ▸ h⟩

/-- A decrement by no more than the counter. -/
theorem processing_sub {n : UInt64} {r : RelayReceiverContext} (hr : c.receivers tt = some r)
    (hn : n.toNat ≤ c.processing tt) :
    (c.modify tt (· - n)).processing t + (if t = tt then n.toNat else 0) = c.processing t := by
  split_ifs with ht
  · subst ht
    rw [processing_of_some hr] at hn
    rw [processing_modify_self _ hr, processing_of_some hr,
      UInt64.toNat_sub_of_le _ _ (UInt64.le_iff_toNat_le.2 hn)]
    exact Nat.sub_add_cancel hn
  · exact processing_modify_of_ne _ ht

/-- A decrement of a counter that is not `0`. -/
theorem processing_decr (h : 0 < c.processing tt) :
    (c.modify tt (· - 1)).processing t + (if t = tt then 1 else 0) = c.processing t := by
  obtain ⟨r, hr, -⟩ := receivers_of_processing h
  exact processing_sub (n := 1) hr h

theorem processing_incr {r : RelayReceiverContext} (hr : c.receivers tt = some r)
    (h : c.processing tt + 1 < UInt64.size) :
    (c.modify tt (· + 1)).processing t = c.processing t + (if t = tt then 1 else 0) := by
  split_ifs with ht
  · subst ht
    rw [processing_of_some hr] at h ⊢
    rw [processing_modify_self _ hr, UInt64.toNat_add]
    exact Nat.mod_eq_of_lt h
  · exact processing_modify_of_ne _ ht

/-- A reservation raises its tag's counter by the permit it gives. -/
theorem processing_tryReserve : (c.tryReserve tt).1.processing t
    = c.processing t + (if (c.tryReserve tt).2 then [tt] else []).count t := by
  obtain ⟨r, hr⟩ := receivers_entry c tt
  unfold tryReserve
  simp only [hr]
  by_cases hlt : r.processing < r.limit
  · have hlt' := UInt64.lt_iff_toNat_lt.1 hlt
    have hsize : (entry c tt).processing tt + 1 < UInt64.size := by
      rw [processing_of_some hr]
      exact Nat.lt_of_le_of_lt hlt' r.limit.toNat_lt
    rw [if_pos hlt, if_pos rfl, processing_incr hr hsize, processing_entry, List.count_singleton]
    simp [eq_comm (a := t)]
  · rw [if_neg hlt, processing_entry]
    simp

end RelayContext

namespace RelayState

variable {B : Type} {s s' : RelayState B}

/-- The messages of a tag in flight and the permits out for it. -/
def outstanding (s : RelayState B) (tt : TypeTag) : ℕ :=
  s.permits.count tt + s.inflight.countP (·.tt = tt)

/-- Every counter is what is outstanding of its tag. -/
def Accounted (s : RelayState B) : Prop :=
  ∀ tt, s.wrapper.context.processing tt = s.outstanding tt

theorem count_erase_add {ps : List TypeTag} {tt : TypeTag} (h : tt ∈ ps) (t : TypeTag) :
    (ps.erase tt).count t + (if t = tt then 1 else 0) = ps.count t := by
  rw [(List.perm_cons_erase h).count_eq t, List.count_cons]
  simp [eq_comm (a := t)]

theorem countP_eraseIdx_add {fs : List InFlight} {i : ℕ} {f : InFlight} (h : fs[i]? = some f)
    (t : TypeTag) :
    (fs.eraseIdx i).countP (·.tt = t) + (if t = f.tt then 1 else 0) = fs.countP (·.tt = t) := by
  obtain ⟨hi, rfl⟩ := List.getElem?_eq_some_iff.1 h
  rw [← (List.getElem_cons_eraseIdx_perm hi).countP_eq, List.countP_cons]
  simp [eq_comm (a := t)]

theorem processing_pos_of_permit (h : s.Accounted) {tt : TypeTag} (hp : tt ∈ s.permits) :
    0 < s.wrapper.context.processing tt := by
  have := List.count_pos_iff.2 hp
  rw [h tt, outstanding]
  omega

theorem processing_pos_of_inflight (h : s.Accounted) {i : ℕ} {f : InFlight}
    (hf : s.inflight[i]? = some f) : 0 < s.wrapper.context.processing f.tt := by
  have := countP_eraseIdx_add hf f.tt
  rw [if_pos rfl] at this
  rw [h f.tt, outstanding]
  omega

theorem accounted_tryReserve (h : s.Accounted) (tt : TypeTag) :
    Accounted { s with
      wrapper.context := (s.wrapper.context.tryReserve tt).1
      permits := s.permits ++ if (s.wrapper.context.tryReserve tt).2 then [tt] else [] } := by
  intro t
  have := h t
  have hp : (s.wrapper.context.tryReserve tt).1.processing t = _ :=
    RelayContext.processing_tryReserve
  simp only [outstanding, List.count_append] at this ⊢
  omega

theorem accounted_dropPermit (h : s.Accounted) {tt : TypeTag} (hmem : tt ∈ s.permits) :
    Accounted { s with
      wrapper.context := s.wrapper.context.permitDrop tt, permits := s.permits.erase tt } := by
  intro t
  have := h t
  have hp := RelayContext.processing_decr (t := t) (processing_pos_of_permit h hmem)
  have hc := count_erase_add hmem t
  simp only [outstanding, RelayContext.permitDrop] at this ⊢
  omega

/-- The message goes to the peer if the relay takes it; the counters stay. -/
theorem accounted_deliver (s : RelayState B) (m : InFlight) (accepted : Bool) :
    (s.deliver m accepted).Accounted ↔ ∀ t, s.wrapper.context.processing t
      = s.outstanding t + if accepted = true ∧ t = m.tt then 1 else 0 := by
  have hout : ∀ t, (s.deliver m accepted).outstanding t
      = s.outstanding t + if accepted = true ∧ t = m.tt then 1 else 0 := by
    intro t
    cases accepted <;>
      simp [outstanding, deliver, List.countP_singleton, eq_comm (a := t), Nat.add_assoc]
  unfold Accounted
  simp only [hout]
  rfl

/-- A send moves a permit into flight if the relay takes the message, and loses it if not. -/
theorem accounted_send (h : s.Accounted) {m : InFlight} (hmem : m.tt ∈ s.permits)
    (accepted : Bool) :
    ({ s with permits := s.permits.erase m.tt }.deliver m accepted).Accounted
      ↔ accepted = true := by
  have hout : ∀ t, ({ s with permits := s.permits.erase m.tt } : RelayState B).outstanding t
      + (if t = m.tt then 1 else 0) = s.wrapper.context.processing t := by
    intro t
    have hc := count_erase_add hmem t
    rw [h t]
    simp only [outstanding]
    omega
  rw [accounted_deliver]
  constructor
  · intro h'
    have := h' m.tt
    dsimp only at this
    rw [← hout m.tt] at this
    by_contra hacc
    simp [hacc] at this
  · rintro rfl t
    rw [← hout t]
    simp

/-- Without a permit the counter goes up only where there is one, whatever the relay answers. -/
theorem accounted_forceSend (h : s.Accounted) (m : InFlight) (accepted : Bool) :
    ({ s with wrapper.context := s.wrapper.context.incrementProcessing m.tt }.deliver
      m accepted).Accounted ↔ if accepted = true
        then (s.wrapper.context.receivers m.tt).isSome
          ∧ s.wrapper.context.processing m.tt + 1 < UInt64.size
        else s.wrapper.context.receivers m.tt = none := by
  rw [accounted_deliver]
  show (∀ t, (s.wrapper.context.modify m.tt (· + 1)).processing t
    = s.outstanding t + if accepted = true ∧ t = m.tt then 1 else 0) ↔ _
  rcases hr : s.wrapper.context.receivers m.tt with _ | r
  · rw [RelayContext.modify_of_none _ hr]
    constructor
    · intro h'
      have := h' m.tt
      rw [h m.tt] at this
      split_ifs with hacc
      · simp [hacc] at this
      · rfl
    · intro hacc t
      split_ifs at hacc with hacc'
      · simp at hacc
      · rw [h t]
        simp [hacc']
  · have hself := RelayContext.processing_modify_self (· + 1) hr
    have hsum := UInt64.toNat_add r.processing 1
    have hlt := r.processing.toNat_lt
    rw [UInt64.toNat_one] at hsum
    have hp := RelayContext.processing_of_some hr
    have hm := h m.tt
    constructor
    · intro h'
      have := h' m.tt
      rw [hself, ← hm, hp, hsum] at this
      split_ifs with hacc
      · refine ⟨rfl, ?_⟩
        rw [hp]
        simp only [hacc, and_self, if_true] at this
        unfold UInt64.size
        omega
      · simp only [hacc, false_and, if_false, Bool.false_eq_true] at this
        omega
    · intro hacc t
      split_ifs at hacc with hacc'
      rw [RelayContext.processing_incr hr hacc.2, h t]
      simp [hacc']

/-- The answer to the `i`-th message in flight takes one off the counter of the tag it names. -/
theorem accounted_answer (h : s.Accounted) {i : ℕ} {f : InFlight} (hf : s.inflight[i]? = some f)
    (hp : ∀ t, s'.wrapper.context.processing t + (if t = f.tt then 1 else 0)
      = s.wrapper.context.processing t) (hper : s'.permits = s.permits)
    (hin : s'.inflight = s.inflight.eraseIdx i) : s'.Accounted := by
  intro t
  have := h t
  have hc := countP_eraseIdx_add hf t
  have := hp t
  simp only [outstanding, hper, hin] at *
  omega

variable [Message B]

/-- A send by a permit is taken by the relay; one without a permit finds its tag's counter and
room in it, and is refused only where there is none; a `Response` carries a message of the tag of
its request. -/
def Charged (s : RelayState B) : RelayLabel B → Prop
  | .send _ accepted => accepted = true
  | .forceSend m true => (s.wrapper.context.receivers m.tt).isSome
      ∧ s.wrapper.context.processing m.tt + 1 < UInt64.size
  | .forceSend m false => s.wrapper.context.receivers m.tt = none
  | .respond i resp => ∀ f, s.inflight[i]? = some f →
      ∃ bm, resp = .ok bm ∧ Message.typeTag bm = f.tt
  | _ => True

omit [Message B] in
theorem answer_context (w : RelayWrapper) (chans : RelayChannels B) (mid : UInt64)
    (resp : Except (Error Unit GenericError) B) :
    (w.answer chans mid resp).1.context = w.context := by
  unfold RelayWrapper.answer
  split
  · split <;> rfl
  · rfl

theorem handle_ok (s : RelayState B) (mid : UInt64) (bm : B) :
    (s.handle (.response mid (.ok bm))).wrapper.context
      = s.wrapper.context.modify (Message.typeTag bm) (· - 1) := by
  simp only [handle, RelayWrapper.handleEvent, answer_context]

theorem handle_error (s : RelayState B) (mid : UInt64) (err : Error Unit GenericError) :
    (s.handle (.response mid (.error err))).wrapper.context = s.wrapper.context := by
  simp only [handle, RelayWrapper.handleEvent, answer_context]

theorem handle_fromPeer (s : RelayState B) {ev : Event B GenericError} (h : ev.fromPeer = true)
    (tt : TypeTag) :
    (s.handle ev).wrapper.context.processing tt = s.wrapper.context.processing tt := by
  cases ev <;> simp only [Event.fromPeer, Bool.false_eq_true] at h <;> rfl

theorem accounted_respond (h : s.Accounted) {i : ℕ} {f : InFlight}
    (hf : s.inflight[i]? = some f) (resp : Except (Error Unit GenericError) B) :
    Accounted { s.handle (.response f.mid resp) with inflight := s.inflight.eraseIdx i }
      ↔ ∃ bm, resp = .ok bm ∧ Message.typeTag bm = f.tt := by
  have hc := countP_eraseIdx_add hf f.tt
  have hpos := processing_pos_of_inflight h hf
  have hf' := h f.tt
  rw [if_pos rfl] at hc
  constructor
  · intro h'
    have := h' f.tt
    simp only [outstanding] at this hf'
    rcases resp with err | bm
    · rw [handle_error] at this
      have : _ = s.permits.count f.tt + _ := this
      omega
    · refine ⟨bm, rfl, ?_⟩
      by_contra hne
      rw [handle_ok, RelayContext.processing_modify_of_ne _ (Ne.symm hne)] at this
      have : _ = s.permits.count f.tt + _ := this
      omega
  · rintro ⟨bm, rfl, htag⟩
    refine accounted_answer h hf (fun t => ?_) rfl rfl
    dsimp only
    rw [handle_ok, htag, RelayContext.processing_decr hpos]

theorem accounted_step {l : RelayLabel B} (h : s.Accounted) (hs : (relay B).step s l = some s') :
    s'.Accounted ↔ s.Charged l := by
  change s.step l = some s' at hs
  cases l with
  | tryReserve tt =>
    cases hs
    exact iff_of_true (accounted_tryReserve h tt) trivial
  | reserveNotify tt =>
    cases hs
    refine iff_of_true (fun t => ?_) trivial
    exact (RelayContext.processing_entry _ tt t).trans (h t)
  | dropPermit tt =>
    simp only [step] at hs
    split_ifs at hs with hmem
    cases hs
    exact iff_of_true (accounted_dropPermit h hmem) trivial
  | send m accepted =>
    simp only [step] at hs
    split_ifs at hs with hmem
    cases hs
    exact accounted_send h hmem accepted
  | forceSend m accepted =>
    cases hs
    rw [accounted_forceSend h m accepted]
    cases accepted <;> simp [Charged]
  | listen key =>
    obtain ⟨waiters, -, rfl⟩ := Option.map_eq_some_iff.1 hs
    exact iff_of_true h trivial
  | cancel r =>
    simp only [step] at hs
    split_ifs at hs
    cases hs
    exact iff_of_true h trivial
  | respond i resp =>
    simp only [step] at hs
    split at hs
    · rename_i mid tt hf
      split_ifs at hs
      cases hs
      rw [accounted_respond h hf resp]
      simp [Charged, hf]
    · cases hs
  | complete i =>
    simp only [step] at hs
    split at hs
    · rename_i mid tt hf
      split_ifs at hs
      cases hs
      refine iff_of_true (accounted_answer h hf (fun t => ?_) rfl rfl) trivial
      exact RelayContext.processing_decr (processing_pos_of_inflight h hf)
    · cases hs
  | event ev =>
    simp only [step] at hs
    split_ifs at hs with hr
    cases hs
    exact iff_of_true (fun t => (handle_fromPeer s hr.2 t).trans (h t)) trivial

/-- The runs that keep every counter at what is outstanding are exactly those whose steps are all
`Charged`. -/
theorem accounted_iff_charged (ls : List (RelayLabel B)) :
    (relay B).Always Accounted ls ↔ (relay B).Throughout Charged ls :=
  Lts.always_iff_throughout (J := Accounted) (fun _ => rfl) (fun _ h => h)
    (fun _ _ _ h hs hC => (accounted_step h hs).2 hC)
    (fun _ _ _ h hs hP => (accounted_step h hs).1 hP) ls

end RelayState

/-- A request answered by a message of its response type leaves its slot taken. Messages are their
tags here. -/
theorem answered_request_keeps_slot :
    ¬ (@relay TypeTag ⟨id⟩).Always RelayState.Accounted
      [.tryReserve "Req", .send ⟨1, "Req", true⟩ true, .respond 0 (.ok "Resp")] := by
  intro h
  have := h.last rfl "Req"
  revert this
  decide

end MessageBus
