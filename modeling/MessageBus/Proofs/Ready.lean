import MessageBus.Proofs.Bounded
import MessageBus.Proofs.RelayCounters
import MessageBus.Ready

/-!
# Callers of `ready` that miss their notification

A caller that waits without a notification found the flag unset, and no `notify_waiters` of a
`Ready` has been since (`Waits`). The store that sets the flag comes after the notifications, and a
caller whose `Notified` is made between the two may still find it unset; where none does, every
`Ready` reaches all who wait (`noneMissed_of_prompt`).
-/

namespace MessageBus

@[simp] theorem ReadyCall.stage_notify (c : ReadyCall) : c.notify.stage = c.stage := by
  unfold notify
  split_ifs <;> rfl

theorem ReadyCall.notified_notify {c : ReadyCall} (h : c.stage ≠ .returned) :
    c.notify.notified = true := by
  simp [notify, h]

section Events

variable {M E : Type}

/-- What the event sets the flag to. -/
def Event.flag? : Event M E → Option Bool
  | .ready => some true
  | .pause | .initFailed _ => some false
  | _ => none

/-- The event has `ready.notify_waiters` before its store. -/
def Event.ringsReady : Event M E → Bool
  | .ready | .initFailed _ => true
  | _ => false

end Events

structure ReadyView.Lawful {σ M E : Type} (V : ReadyView σ M E) : Prop where
  flag : ∀ s ev, V.isReady (V.turn s ev) = ev.flag?.getD (V.isReady s)
  rings : ∀ s ev, V.rings s ev = ev.ringsReady

/-- The flag goes up in the turn of a `Ready` alone. -/
theorem ReadyView.Lawful.unset_turn {σ M E : Type} {V : ReadyView σ M E} (hV : V.Lawful) {s : σ}
    {ev : Event M E} (hunset : V.isReady s = false) (hev : ev ≠ .ready) :
    V.isReady (V.turn s ev) = false := by
  rw [hV.flag, hunset]
  cases ev with
  | ready => exact absurd rfl hev
  | _ => rfl

namespace ReadyState

variable {σ M E : Type} {V : ReadyView σ M E} {s s' : ReadyState σ M E} {l : ReadyLabel σ M E}

/-- Between turns, after that of a `Ready`, with the flag set, whoever is parked has been
notified. -/
def NoneMissed (V : ReadyView σ M E) (s : ReadyState σ M E) : Prop :=
  s.handling = none → s.latest = some .ready → V.isReady s.receiver = true →
    ∀ c ∈ s.calls, c.stage = .parked → c.notified = true

/-- No call whose `Notified` was made after the `notify_waiters` of the `Ready` in hand finds the
flag unset before its store. -/
def Prompt (V : ReadyView σ M E) (s : ReadyState σ M E) : ReadyLabel σ M E → Prop
  | .isReady i => ∀ c, s.calls[i]? = some c → s.handling = some .ready →
      V.isReady s.receiver = false → c.notified = true
  | _ => True

/-- The call waits for a notification. -/
def Waits (c : ReadyCall) : Prop :=
  (c.stage = .unready ∨ c.stage = .parked) ∧ c.notified = false

/-- Whoever waits has found the flag unset since the last `Ready`. -/
def Inv (V : ReadyView σ M E) (s : ReadyState σ M E) : Prop :=
  ∀ c ∈ s.calls, Waits c → V.isReady s.receiver = false ∧ s.handling ≠ some .ready

theorem Inv.noneMissed (h : Inv V s) : NoneMissed V s := by
  intro _ _ hready c hc hstage
  by_contra hnotified
  have hunset := (h c hc ⟨.inr hstage, by simpa using hnotified⟩).1
  simp [hready] at hunset

/-- A call moves on. -/
theorem Inv.set (h : Inv V s) {i : ℕ} {c : ReadyCall}
    (hc : Waits c → V.isReady s.receiver = false ∧ s.handling ≠ some .ready) :
    Inv V (s.set i c) := by
  intro x hx
  rcases List.mem_or_eq_of_mem_set hx with hx | rfl
  · exact h x hx
  · exact hc

/-- A turn is over, of a `Ready` only if that was in hand. -/
theorem Inv.turn (hV : V.Lawful) (h : Inv V s) {ev : Event M E}
    (hev : ev = .ready → s.handling = some .ready) :
    Inv V ⟨V.turn s.receiver ev, none, some ev, s.calls⟩ := by
  intro c hc hwaits
  obtain ⟨hunset, hne⟩ := h c hc hwaits
  exact ⟨hV.unset_turn hunset fun hready => hne (hev hready), by simp⟩

theorem inv_step (hV : V.Lawful) (h : Inv V s) (hs : s.step V l = some s') (hC : s.Prompt V l) :
    Inv V s' := by
  cases l with
  | start =>
    cases hs
    intro c hc
    rcases List.mem_append.1 hc with hc | hc
    · exact h c hc
    · obtain rfl := List.mem_singleton.1 hc
      simp [Waits]
  | isReady i =>
    simp only [step] at hs
    split at hs
    · rename_i notified hi
      cases hs
      refine h.set fun hwaits => ?_
      have hunset : V.isReady s.receiver = false := by
        rw [← Bool.not_eq_true]
        intro hset
        simp [Waits, hset] at hwaits
      refine ⟨hunset, fun hready => ?_⟩
      have hnotified := hC _ hi hready hunset
      exact absurd (hwaits.2.symm.trans hnotified) (by decide)
    · cases hs
  | poll i =>
    simp only [step] at hs
    split at hs
    · rename_i notified hi
      cases hs
      exact h.set fun hwaits => h _ (List.mem_of_getElem? hi) ⟨.inl rfl, hwaits.2⟩
    · cases hs
  | resume i =>
    simp only [step] at hs
    split at hs
    · cases hs
      exact h.set (by simp [Waits])
    · cases hs
  | notifyWaiters ev =>
    simp only [step] at hs
    split_ifs at hs
    cases hs
    -- The notification reaches every `Notified` there is, so nobody waits after it.
    intro c hc hwaits
    obtain ⟨c, -, rfl⟩ := List.mem_map.1 hc
    have hstage : c.stage ≠ .returned := by
      intro hreturned
      simp [Waits, hreturned] at hwaits
    simp [Waits, c.notified_notify hstage] at hwaits
  | store =>
    obtain ⟨ev, hev, rfl⟩ := Option.map_eq_some_iff.1 hs
    exact h.turn hV fun hready => hready ▸ hev
  | turn ev =>
    simp only [step] at hs
    split_ifs at hs with hcond
    cases hs
    obtain ⟨-, hnone, hrings⟩ := hcond
    have hturn : Inv V ⟨V.turn s.receiver ev, none, some ev, s.calls⟩ :=
      h.turn hV fun hready => by simp [hready, hV.rings, Event.ringsReady] at hrings
    rwa [← Option.isNone_iff_eq_none.1 hnone] at hturn
  | other receiver =>
    simp only [step] at hs
    split_ifs at hs with hcond
    cases hs
    intro c hc hwaits
    rw [hcond.1]
    exact h c hc hwaits

theorem always_noneMissed (hV : V.Lawful) (receiver : σ) {ls : List (ReadyLabel σ M E)}
    (h : (readyCallers V receiver).Throughout (Prompt V) ls) :
    (readyCallers V receiver).Always (NoneMissed V) ls := by
  refine Lts.alwaysFrom_of_throughoutFrom (J := Inv V) (fun _ => Inv.noneMissed)
    (fun _ _ _ hs => inv_step hV hs) ?_ h
  exact List.forall_mem_nil _

end ReadyState

theorem localReady_lawful {R E B : Type} [StdSyncSendError E] (intoBoxed : R → B) :
    (localReady intoBoxed : ReadyView (Turn R E B) R E).Lawful where
  flag t ev := by
    cases ev with
    | response mid res =>
      show (handleEvent intoBoxed t.wrapper t.chans _).wrapper.context.readyFlag = _
      simp only [handleEvent, context_response]
      rfl
    | _ => rfl
  rings t ev := by
    cases ev with
    | response mid res =>
      have hwakes : (handleEvent intoBoxed t.wrapper t.chans (.response mid res)).wakes
          = (if t.wrapper.context.processing = 1 then [.idle] else []) ++ [.responseOne] := rfl
      simp only [localReady, hwakes]
      split_ifs <;> rfl
    | batchComplete tt n =>
      show decide (Wake.ready ∈ [if n > 1 then Wake.response else .responseOne]) = false
      split_ifs <;> rfl
    | _ => rfl

theorem relayReady_lawful (B : Type) [Message B] : (relayReady B).Lawful where
  flag t ev := by
    cases ev with
    | response mid res =>
      show (t.wrapper.handleEvent t.chans _).wrapper.context.readyFlag = _
      rcases res with err | bm
      · simp only [RelayWrapper.handleEvent, RelayState.answer_context]
        rfl
      · simp only [RelayWrapper.handleEvent, RelayState.answer_context]
        rfl
    | _ => rfl
  rings t ev := by
    cases ev with
    | response mid res =>
      rcases res with err | bm
      · rfl
      · simp only [relayReady, RelayWrapper.handleEvent]
        split_ifs <;> rfl
    | batchComplete tt n =>
      simp only [relayReady, RelayWrapper.handleEvent]
      split_ifs
      · simp [Event.ringsReady]
      · rfl
    | _ => rfl

open ReadyState

/-- For local receivers and for relays, whatever their events: in a run where no late caller finds
the flag unset before the store of a `Ready`, nobody parked in `ready` misses a `Ready`. -/
theorem noneMissed_of_prompt {R E B : Type} [StdSyncSendError E] [Message B] (intoBoxed : R → B)
    (limit : UInt64) :
    (∀ ls, (localReadyCallers intoBoxed limit).Throughout
        (Prompt (localReady intoBoxed : ReadyView (Turn R E B) R E)) ls →
      (localReadyCallers intoBoxed limit).Always (NoneMissed (localReady intoBoxed)) ls)
    ∧ ∀ ls, (relayReadyCallers B).Throughout (Prompt (relayReady B)) ls →
      (relayReadyCallers B).Always (NoneMissed (relayReady B)) ls :=
  ⟨fun _ => always_noneMissed (localReady_lawful intoBoxed) _,
    fun _ => always_noneMissed (relayReady_lawful B) _⟩

/-- Two callers that park before the `Ready`, and one that comes after it. -/
theorem noneMissed_of_prompt_three_calls :
    (localReadyCallers (id : Unit → Unit) 1).Always
      (NoneMissed (localReady (id : Unit → Unit) : ReadyView (Turn Unit GenericError Unit) _ _))
      [.start, .isReady 0, .start, .isReady 1, .poll 1, .poll 0, .notifyWaiters .ready, .store,
        .start, .isReady 2, .resume 1, .resume 0] := by
  refine (@noneMissed_of_prompt Unit GenericError Unit _ ⟨fun _ => "unit"⟩ id 1).1 _ ?_
  unfold Lts.Throughout
  iterate 12
    refine .cons (by rfl) ?_ ?_
    · first | exact trivial | exact fun _ _ hready => by cases hready
  exact trivial

/-- A caller that makes its `Notified` between the notifications of a `Ready` and its store: it
finds the flag unset, and parks behind a `Ready` that is over. -/
theorem late_caller_misses_ready :
    ¬ (localReadyCallers (id : Unit → Unit) 1).Always
      (NoneMissed (localReady (id : Unit → Unit) : ReadyView (Turn Unit GenericError Unit) _ _))
      [.notifyWaiters .ready, .start, .isReady 0, .store, .poll 0] := by
  intro h
  have := h.last rfl rfl rfl rfl ⟨.parked, false⟩ (by decide) rfl
  cases this

end MessageBus
