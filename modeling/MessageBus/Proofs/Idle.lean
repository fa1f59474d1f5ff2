import MessageBus.Idle
import MessageBus.Proofs.Bounded

/-!
# Callers of `idle` that nobody wakes

The counter falls to `0` by a `Response`, whose turn notifies `idle`, or by a permit that is dropped
unused, which notifies nobody. And a caller makes its `Notified` after its load of the counter, so
the notification may come between the two. Where neither happens, a caller is parked only while the
counter is not `0` or the notification is on its way (`IdleInv`).
-/

namespace MessageBus

namespace IdleState

variable {M R E B σ ℓ : Type} {limit : UInt64} {P : Lts σ (PollerLabel M ℓ)}
  {V : PollerView σ R E} {accepted : σ → List (Request M)} {load : σ → ℕ} {Inv : σ → Prop}
  {s s' : IdleState σ R E B}

/-- A caller is parked and not notified, while the counter is `0`, no message is queued, buffered or
running, no `Response` waits on the stream, and the loop is not about to notify `idle`. -/
structure Stranded (V : PollerView σ R E) (load : σ → ℕ) (s : IdleState σ R E B) : Prop where
  parked : ∃ c ∈ s.calls, c.stage = .parked ∧ c.notified = false
  processing : s.processing = 0
  load : load s.bounded.served.poller = 0
  heard : responses ((V.stx s.bounded.served.poller).drop s.bounded.served.heard) = 0
  ringing : s.ringing = false

/-- No caller parks, without its notification, where the counter is `0` and no notification is on
its way; no permit is dropped unused from a counter of `1` over such a caller; and `force_send` does
not overflow the counter. -/
def Heeds (s : IdleState σ R E B) : IdleLabel M ℓ → Prop
  | .poll i => ∀ c, s.calls[i]? = some c → c.notified = false → s.processing = 0 →
      s.ringing = true
  | .step (.dropPermit _) => s.processing = 1 → s.ringing = false →
      ∀ c ∈ s.calls, c.stage = .parked → c.notified = true
  | .incrementProcessing _ => s.processing < Int64.maxValue
  | _ => True

structure IdleInv (V : PollerView σ R E) (accepted : σ → List (Request M)) (Inv : σ → Prop)
    (s : IdleState σ R E B) : Prop where
  covered : CoveredInv V accepted Inv s.bounded
  parked : ∀ c ∈ s.calls, c.stage = .parked → c.notified = false →
    s.processing ≠ 0 ∨ s.ringing = true

theorem IdleInv.not_stranded (h : IdleInv V accepted Inv s) : ¬ Stranded V load s := by
  rintro ⟨⟨c, hc, hstage, hnotified⟩, hzero, -, -, hringing⟩
  rcases h.parked c hc hstage hnotified with hne | hring
  · exact hne hzero
  · simp [hringing] at hring

/-- A call moves on. -/
theorem IdleInv.set (h : IdleInv V accepted Inv s) {i : ℕ} {c : IdleCall}
    (hc : c.stage = .parked → c.notified = false → s.processing ≠ 0 ∨ s.ringing = true) :
    IdleInv V accepted Inv (s.set i c) := by
  refine ⟨h.covered, fun x hx => ?_⟩
  rcases List.mem_or_eq_of_mem_set hx with hx | rfl
  · exact h.parked x hx
  · exact hc

theorem stage_notify (c : IdleCall) : c.notify.stage = c.stage := by
  obtain ⟨stage, notified⟩ := c
  cases stage <;> rfl

theorem notified_notify {c : IdleCall} (h : c.notify.stage = .parked) :
    c.notify.notified = true := by
  rw [stage_notify] at h
  obtain ⟨stage, notified⟩ := c
  cases h
  rfl

theorem eq_one_of_sub_eq_zero {a : Int64} (h : a - 1 = 0) : a = 1 := by
  simpa using Int64.sub_eq_iff_eq_add.1 h

variable [StdSyncSendError E] {intoBoxed : R → B}

/-- A turn on a `Response` that finds the counter at `1` notifies `idle`. -/
theorem rings_of_response {ev : Event R E}
    (hev : (V.stx s.bounded.served.poller)[s.bounded.served.heard]? = some ev)
    (hmid : ev.mid?.isSome = true) (hone : s.processing = 1) : s.rings intoBoxed V = true := by
  cases ev with
  | response mid res =>
    have hone : s.bounded.served.wrapper.context.processing = 1 := hone
    simp [rings, hev, handleEvent, hone]
  | _ => cases hmid

/-- The senders or the receiver move, and whoever is parked is still owed a notification. -/
theorem inv_move (hP : Counted P V accepted load Inv) (h : IdleInv V accepted Inv s)
    {l : BoundedLabel M ℓ} (hblocked : s.blocked l = false) {b : BoundedState σ R E B}
    (hb : s.bounded.step intoBoxed P V l = some b) (hC : s.Heeds (.step l)) :
    IdleInv V accepted Inv
      { s with
        bounded := b, forced := s.forcedAfter l, ringing := s.ringingAfter intoBoxed V l } := by
  refine ⟨covered_step hP h.covered hb, fun c hc hstage hnotified => ?_⟩
  have hcounts := counts_step hP h.covered.poller hb
  have hparked := h.parked c hc hstage hnotified
  show b.processing ≠ 0 ∨ s.ringingAfter intoBoxed V l = true
  generalize b.processing = n at hcounts
  have hnonneg := h.covered.nonneg
  cases hcounts with
  | same =>
    rcases hparked with hne | hring
    · exact .inl hne
    · right
      cases l with
      | serve l =>
        cases l with
        | turn => exact absurd (hblocked.symm.trans hring) (by decide)
        | _ => exact hring
      | _ => exact hring
  | exchange hi =>
    have hadd := toInt_add_one (h.covered.passed _ (List.mem_of_getElem? hi))
    left
    rintro hzero
    rw [hzero] at hadd
    simp only [Int64.toInt_zero] at hadd
    omega
  | dropPermit hi =>
    by_cases hone : s.processing = 1
    · rcases hparked with - | hring
      · by_cases hring : s.ringing = true
        · exact .inr hring
        · have := hC hone (by simpa using hring) c hc hstage
          simp [hnotified] at this
      · exact .inr hring
    · left
      intro hzero
      exact hone (eq_one_of_sub_eq_zero hzero)
  | respond ev hev hmid =>
    by_cases hone : s.processing = 1
    · exact .inr (rings_of_response hev hmid hone)
    · left
      intro hzero
      exact hone (eq_one_of_sub_eq_zero hzero)

theorem inv_step (hP : Counted P V accepted load Inv) (h : IdleInv V accepted Inv s)
    {l : IdleLabel M ℓ} (hs : s.step intoBoxed P V l = some s') (hC : s.Heeds l) :
    IdleInv V accepted Inv s' := by
  cases l with
  | call =>
    cases hs
    refine ⟨h.covered, fun c hc => ?_⟩
    rcases List.mem_append.1 hc with hc | hc
    · exact h.parked c hc
    · obtain rfl := List.mem_singleton.1 hc
      nofun
  | isIdling i =>
    simp only [step] at hs
    split at hs
    · cases hs
      refine h.set fun hstage => ?_
      split_ifs at hstage
    · cases hs
  | notified i =>
    simp only [step] at hs
    split at hs
    · cases hs
      exact h.set nofun
    · cases hs
  | poll i =>
    simp only [step] at hs
    split at hs
    · rename_i notified hi
      cases hs
      refine h.set fun _ hnotified => ?_
      by_cases hzero : s.processing = 0
      · exact .inr (hC _ hi hnotified hzero)
      · exact .inl hzero
    · cases hs
  | resume i =>
    simp only [step] at hs
    split at hs
    · cases hs
      exact h.set nofun
    · cases hs
  | incrementProcessing i =>
    simp only [step] at hs
    split at hs
    · rename_i hi
      cases hs
      have hadd : (s.processing + 1).toInt = s.processing.toInt + 1 := toInt_add_one hC
      have hnonneg : 0 ≤ s.processing.toInt := h.covered.nonneg
      refine ⟨h.covered.setSender hi (by simp) (by omega) ?_, fun c _ _ _ => .inl fun hzero => ?_⟩
      · show s.processing.toInt + 1 ≤ (s.processing + 1).toInt + 0
        omega
      · have hzero : s.processing + 1 = 0 := hzero
        rw [hzero, Int64.toInt_zero] at hadd
        omega
    · cases hs
  | notifyWaiters =>
    simp only [step] at hs
    split_ifs at hs
    cases hs
    -- The notification reaches every `Notified` there is.
    refine ⟨h.covered, fun c hc hstage hnotified => ?_⟩
    obtain ⟨c, -, rfl⟩ := List.mem_map.1 hc
    simp [notified_notify hstage] at hnotified
  | step l =>
    simp only [step] at hs
    split_ifs at hs with hblocked
    obtain ⟨b, hb, rfl⟩ := Option.map_eq_some_iff.1 hs
    exact inv_move hP h (by simpa using hblocked) hb hC

theorem always_not_stranded (hP : Counted P V accepted load Inv) {ls : List (IdleLabel M ℓ)}
    (h : (idleCallers intoBoxed limit P V).Throughout Heeds ls) :
    (idleCallers intoBoxed limit P V).Always (fun s => ¬ Stranded V load s) ls := by
  refine Lts.alwaysFrom_of_throughoutFrom (J := IdleInv V accepted Inv)
    (fun _ => IdleInv.not_stranded) (fun _ _ _ hinv hs => inv_step hP hinv hs) ?_ h
  refine ⟨⟨hP.start, Int.le_refl 0, Nat.zero_le _, ?_, nofun⟩, List.forall_mem_nil _⟩
  have hfresh : requests (accepted P.start) = 0 := by rw [hP.fresh]; rfl
  show ((0 + requests (accepted P.start) : ℕ) : ℤ) ≤ 0 + _
  omega

end IdleState

open IdleState

/-- For every kind of local receiver: in a run that heeds the callers of `idle`, none of them is
left parked at an idle receiver without a notification. -/
theorem noneStranded_idle {ι B H M R E : Type} [DecidableEq ι] [StdSyncSendError E]
    {Mi Ri Ei : ι → Type} [∀ i, StdSyncSendError (Ei i)] (limit : UInt64) (intoBoxed : R → B) :
    (∀ cfg ls, (idleCallers intoBoxed limit (bufferUnorderedPoller M R E cfg)
        BufferUnordered.view).Throughout Heeds ls →
      (idleCallers intoBoxed limit (bufferUnorderedPoller M R E cfg) BufferUnordered.view).Always
        (fun s => ¬ Stranded BufferUnordered.view BufferUnordered.load s) ls)
    ∧ (∀ (f : SynchronizedHandler Mi Ri Ei H) h₀ i (intoBoxed : Ri i → B) ls,
      (idleCallers intoBoxed limit (synchronizedPoller f h₀ i)
        (SynchronizedItem.view i)).Throughout Heeds ls →
      (idleCallers intoBoxed limit (synchronizedPoller f h₀ i) (SynchronizedItem.view i)).Always
        (fun s => ¬ Stranded (SynchronizedItem.view i) (fun s => (s.subs i).load) s) ls)
    ∧ (∀ cfg ls, (idleCallers intoBoxed limit
        (withPanics (bufferUnorderedBatchPoller M R E cfg) (BufferUnorderedBatched.panic cfg))
        BufferUnorderedBatched.view).Throughout Heeds ls →
      (idleCallers intoBoxed limit
        (withPanics (bufferUnorderedBatchPoller M R E cfg) (BufferUnorderedBatched.panic cfg))
        BufferUnorderedBatched.view).Always
        (fun s => ¬ Stranded BufferUnorderedBatched.view BufferUnorderedBatched.load s) ls)
    ∧ ∀ cfg ls, (idleCallers intoBoxed limit
        (withPanics (batchSynchronizedPoller M R E cfg) SynchronizedBatched.panic)
        SynchronizedBatched.view).Throughout Heeds ls →
      (idleCallers intoBoxed limit
        (withPanics (batchSynchronizedPoller M R E cfg) SynchronizedBatched.panic)
        SynchronizedBatched.view).Always
        (fun s => ¬ Stranded SynchronizedBatched.view (fun s => s.core.load) s) ls :=
  ⟨fun cfg _ => always_not_stranded (BufferUnordered.counted cfg),
    fun f h₀ i _ _ => always_not_stranded (SynchronizedItem.counted f h₀ i),
    fun cfg _ => always_not_stranded (BufferUnorderedBatched.counted cfg),
    fun cfg _ => always_not_stranded (SynchronizedBatched.counted cfg)⟩

section Runs

/-- A sender gets its permit. -/
def reserveOne : List (IdleLabel Unit (BufferUnordered.Label Unit GenericError)) :=
  [.step .spawn, .step (.load 0 0), .step (.compare 0), .step (.compareExchange 0)]

/-- Its message goes through the poller, and the loop handles the `Response`. -/
def answerOne : List (IdleLabel Unit (BufferUnordered.Label Unit GenericError)) :=
  [.step (.push 0 1 () false true), .step (.mark 0), .step (.serve (.run .recv)),
    .step (.serve (.run .acquire)), .step (.serve (.run (.start 0))),
    .step (.serve (.run (.finish 0 (.ok ())))), .step (.serve (.run (.send 0))),
    .step (.serve .turn), .notifyWaiters]

/-- Two callers that park before the `Response`, and one that comes after it. -/
theorem noneStranded_idle_three_calls :
    (idleCallers (id : Unit → Unit) 1 (bufferUnorderedPoller Unit Unit GenericError ⟨1⟩)
      BufferUnordered.view).Always
      (fun s => ¬ Stranded BufferUnordered.view BufferUnordered.load s)
      (reserveOne ++ [.call, .isIdling 0, .call, .notified 0, .isIdling 1, .notified 1, .poll 1,
        .poll 0] ++ answerOne ++ [.resume 0, .call, .isIdling 2, .resume 1]) := by
  refine (@noneStranded_idle Unit Unit Unit Unit Unit GenericError _ _ (fun _ => Unit)
    (fun _ => Unit) (fun _ => GenericError) _ 1 id).1 _ _ ?_
  unfold Lts.Throughout
  iterate 25
    refine .cons (by rfl) ?_ ?_
    · first | exact trivial | exact fun _ _ _ h => absurd h (by decide)
  exact trivial

/-- A caller that loads the counter before the last `Response` and makes its `Notified` after it:
it parks at an idle receiver, with nobody left to notify it. -/
theorem late_caller_strands_idle :
    ¬ (idleCallers (id : Unit → Unit) 1 (bufferUnorderedPoller Unit Unit GenericError ⟨1⟩)
      BufferUnordered.view).Always
      (fun s => ¬ Stranded BufferUnordered.view BufferUnordered.load s)
      (reserveOne ++ [.call, .isIdling 0] ++ answerOne ++ [.notified 0, .poll 0]) := by
  intro h
  refine h.last rfl ⟨⟨⟨.parked, false⟩, ?_, rfl, rfl⟩, ?_, ?_, ?_, ?_⟩
  all_goals decide

end Runs

end MessageBus
