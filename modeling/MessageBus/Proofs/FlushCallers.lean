import MessageBus.Proofs.Callers

/-!
# Callers of `flush` that are left behind

Every `Flush` pushed belongs to a call that is served or waits, and every `Flushed` the loop has
handled to a call that it served or to the permit that is stored (`Ledger`). A `Flushed` handled
while a permit is stored is the one that goes lost, and with it a notification
(`noneLeft_of_spaced`).
-/

namespace MessageBus

/-- A call of `flush` that has its notification. -/
def Caller.served (c : Caller) : Bool :=
  c.kind = .flush && (c.stage = .returned || c.stage = .parked && c.notified)

/-- A call of `flush` past its push that has none. -/
def Caller.waiting (c : Caller) : Bool :=
  c.kind = .flush && (c.stage = .pushed || c.stage = .parked && !c.notified)

@[simp] theorem Caller.served_notifySync (c : Caller) : c.notifySync.served = c.served := by
  obtain ⟨_ | _, since, stage, notified⟩ := c
  · rfl
  · cases stage <;> rfl

@[simp] theorem Caller.waiting_notifySync (c : Caller) : c.notifySync.waiting = c.waiting := by
  obtain ⟨_ | _, since, stage, notified⟩ := c
  · rfl
  · cases stage <;> rfl

/-- A receiver, with the invariant it keeps, whose `Flush` actions are counted as the calls push
them, and its `Flushed` events as the loop handles them. -/
structure FlushCount {σ ℓ : Type} (R : Lts σ ℓ) (V : CallersView σ ℓ) (pushed handled : σ → ℕ)
    (Inv : σ → Prop) : Prop where
  start : Inv R.start
  fresh : pushed R.start = 0
  silent : handled R.start = 0
  push : ∀ s (kind : BarrierKind) s', Inv s → R.step s (V.push kind.action) = some s' →
    Inv s' ∧ pushed s' = pushed s + (if kind = .flush then 1 else 0) ∧ handled s' = handled s
  step : ∀ s l s', Inv s → V.calls l = false → R.step s l = some s' →
    Inv s' ∧ pushed s' = pushed s
      ∧ handled s' = handled s + if V.rings s l = some .flush then 1 else 0

namespace CallersState

section Ledger

variable {σ ℓ : Type} {R : Lts σ ℓ} {V : CallersView σ ℓ} {pushed handled : σ → ℕ} {Inv : σ → Prop}
  {s s' : CallersState σ} {l : CallersLabel ℓ}

/-- Once every `Flush` pushed has its `Flushed` handled, whoever is parked in `flush` has a
notification or finds one stored. -/
def NoneLeft (pushed handled : σ → ℕ) (s : CallersState σ) : Prop :=
  pushed s.receiver ≤ handled s.receiver → ∀ c ∈ s.calls, c.kind = .flush → c.stage = .parked →
    c.notified = true ∨ s.flushed.permit = true

/-- The loop handles no `Flushed` while a permit is stored. -/
def Spaced (V : CallersView σ ℓ) (s : CallersState σ) : CallersLabel ℓ → Prop
  | .step l => V.rings s.receiver l = some .flush → s.flushed.permit = false
  | _ => True

structure Ledger (pushed handled : σ → ℕ) (Inv : σ → Prop) (s : CallersState σ) : Prop where
  receiver : Inv s.receiver
  queued : Queued s.flushed s.calls
  pushed : s.calls.countP Caller.served + s.calls.countP Caller.waiting = pushed s.receiver
  handled : handled s.receiver
    = s.calls.countP Caller.served + if s.flushed.permit = true then 1 else 0

theorem Ledger.noneLeft (h : Ledger pushed handled Inv s) : NoneLeft pushed handled s := by
  intro hle c hc hkind hstage
  by_cases hnotified : c.notified = true
  · exact .inl hnotified
  · right
    have hwaiting : 0 < s.calls.countP Caller.waiting :=
      List.countP_pos_iff.2 ⟨c, hc, by simp [Caller.waiting, hkind, hstage, hnotified]⟩
    have hpushed := h.pushed
    have hhandled := h.handled
    by_contra hpermit
    rw [if_neg hpermit] at hhandled
    omega

/-- A call moves on, and the permit and the receiver's counts with it. -/
theorem Ledger.update (h : Ledger pushed handled Inv s) {i : ℕ} {c c' : Caller} {n : Notify ℕ}
    {receiver : σ} (hi : s.calls[i]? = some c) (hinv : Inv receiver)
    (hqueued : Queued n (s.calls.set i c'))
    (hpushed : pushed receiver + (if c.served then 1 else 0) + (if c.waiting then 1 else 0)
      = pushed s.receiver + (if c'.served then 1 else 0) + if c'.waiting then 1 else 0)
    (hhandled : handled receiver + (if s.flushed.permit then 1 else 0)
        + (if c.served then 1 else 0)
      = handled s.receiver + (if n.permit then 1 else 0) + if c'.served then 1 else 0) :
    Ledger pushed handled Inv ⟨receiver, n, s.calls.set i c'⟩ := by
  have hserved := Pool.countP_set_add (q := Caller.served) (b := c') hi
  have hwaiting := Pool.countP_set_add (q := Caller.waiting) (b := c') hi
  have h1 := h.pushed
  have h2 := h.handled
  exact ⟨hinv, hqueued, by dsimp only; omega, by dsimp only; omega⟩

/-- The receiver takes a step that gives a flush no notification. -/
theorem Ledger.quiet (hR : FlushCount R V pushed handled Inv) (h : Ledger pushed handled Inv s)
    {m : ℓ} {receiver : σ} (hcalls : V.calls m = false)
    (hstep : R.step s.receiver m = some receiver) (hrings : V.rings s.receiver m ≠ some .flush) :
    Ledger pushed handled Inv { s with receiver } := by
  obtain ⟨hinv, hpushed, hhandled⟩ := hR.step _ _ _ h.receiver hcalls hstep
  rw [if_neg hrings] at hhandled
  exact ⟨hinv, h.queued, h.pushed.trans hpushed.symm, hhandled.trans h.handled⟩

theorem ledger_step (hR : FlushCount R V pushed handled Inv) (h : Ledger pushed handled Inv s)
    (hs : s.step R V l = some s') (hC : s.Spaced V l) : Ledger pushed handled Inv s' := by
  have hqueued := queued_step h.queued hs
  cases move hs with
  | start kind =>
    refine ⟨h.receiver, hqueued, ?_, ?_⟩
    · simpa [Caller.served, Caller.waiting] using h.pushed
    · simpa [Caller.served] using h.handled
  | push receiver hi hstep =>
    obtain ⟨hinv, hpushed, hhandled⟩ := hR.push _ _ _ h.receiver hstep
    refine h.update hi hinv hqueued ?_ ?_
    · simpa [Caller.served, Caller.waiting] using hpushed
    · simp [Caller.served, hhandled]
  | refuse hi =>
    refine h.update hi h.receiver hqueued ?_ ?_ <;> simp [Caller.served, Caller.waiting]
  | take hi hp =>
    refine h.update hi h.receiver hqueued ?_ ?_
    · simp [Caller.served, Caller.waiting]
    · simp [Caller.served, hp]
  | park hi hp =>
    obtain rfl := h.queued.unparked _ (List.mem_of_getElem? hi) rfl (.inr rfl)
    refine h.update hi h.receiver hqueued ?_ ?_ <;> simp [Caller.served, Caller.waiting]
  | pollSync hi =>
    refine h.update hi h.receiver hqueued ?_ ?_ <;> simp [Caller.served, Caller.waiting]
  | resume hi =>
    refine h.update hi h.receiver hqueued ?_ ?_ <;> simp [Caller.served, Caller.waiting]
  | quiet receiver hcalls hstep hrings => exact h.quiet hR hcalls hstep (by simp [hrings])
  | store receiver hcalls hstep hrings hw =>
    obtain ⟨hinv, hpushed, hhandled⟩ := hR.step _ _ _ h.receiver hcalls hstep
    have hpermit := h.handled
    rw [if_pos hrings] at hhandled
    rw [if_neg (by simp [hC hrings])] at hpermit
    refine ⟨hinv, hqueued, h.pushed.trans hpushed.symm, ?_⟩
    show handled receiver = s.calls.countP Caller.served + 1
    omega
  | wake receiver w ws hcalls hstep hrings hw =>
    obtain ⟨hinv, hpushed, hhandled⟩ := hR.step _ _ _ h.receiver hcalls hstep
    obtain ⟨since, hi, hset⟩ := h.queued.modify_head hw
    rw [if_pos hrings] at hhandled
    simp only [hset] at hqueued ⊢
    refine h.update hi hinv hqueued ?_ ?_
    · simp [Caller.served, Caller.waiting, hpushed]
    · simp [Caller.served, hhandled]
      omega
  | all receiver hcalls hstep hrings =>
    have hkept := h.quiet hR hcalls hstep (by simp [hrings])
    refine ⟨hkept.receiver, hqueued, ?_, ?_⟩
    · simpa [List.countP_map, Function.comp_def] using hkept.pushed
    · simpa [List.countP_map, Function.comp_def] using hkept.handled

theorem always_noneLeft (hR : FlushCount R V pushed handled Inv)
    {ls : List (CallersLabel ℓ)} (h : (callers R V).Throughout (Spaced V) ls) :
    (callers R V).Always (NoneLeft pushed handled) ls := by
  refine Lts.alwaysFrom_of_throughoutFrom (J := Ledger pushed handled Inv)
    (fun _ => Ledger.noneLeft) (fun _ _ _ hs => ledger_step hR hs) ?_ h
  refine ⟨hR.start, queued_start (R := R) (V := V), ?_, ?_⟩
  · exact hR.fresh.symm
  · exact hR.silent

end Ledger

end CallersState

section Served

variable {M R E B σ ℓ : Type} [StdSyncSendError E] {P : Lts σ (PollerLabel M ℓ)}
  {V : PollerView σ R E} {accepted : σ → List (Request M)} {load : σ → ℕ} {Inv : σ → Prop}

theorem Counted.flushCount (hP : Counted P V accepted load Inv) (intoBoxed : R → B)
    (limit : UInt64) :
    FlushCount (servedReceiver intoBoxed limit P V) (servedView intoBoxed V accepted)
      (fun s => asked .flush (accepted s.poller)) (fun s => s.told V .flush)
      (fun s => s.heard ≤ (V.stx s.poller).length) where
  start := Nat.zero_le _
  fresh := by
    show asked .flush (accepted P.start) = 0
    rw [hP.fresh]
    rfl
  silent := rfl
  push s kind s' hheard hs := by
    change s.step intoBoxed P V (.push (.action kind.action)) = some s' at hs
    have haccepted := hP.accepted_serve hs
    obtain ⟨hheard', htold⟩ := hP.told_serve hheard hs
    refine ⟨hheard', ?_, htold .flush⟩
    rw [haccepted, asked_append]
    simp [ServedLabel.items, asked_singleton]
  step s l s' hheard hcalls hs := by
    have haccepted := hP.accepted_serve hs
    obtain ⟨hheard', htold⟩ := hP.told_serve hheard hs
    refine ⟨hheard', ?_, htold .flush⟩
    rw [haccepted, asked_append]
    rw [calls_servedView] at hcalls
    cases l with
    | push item =>
      have hkind : item.kind? = none := by simpa [ServedLabel.items] using hcalls
      simp [ServedLabel.items, asked_singleton, hkind]
    | _ => rfl

/-- `NoneLeft` where the `Flush`es are the items of that kind, and the `Flushed`s on the stream. -/
def ServedNoneLeft (V : PollerView σ R E) (accepted : σ → List (Request M)) :
    CallersState (ServedState σ R E B) → Prop :=
  CallersState.NoneLeft (fun s => asked .flush (accepted s.poller)) fun s => s.told V .flush

end Served

section Remote

variable {B : Type} [Message B]

theorem RelayHost.flushCount :
    FlushCount (relayHost B) (relayView B) (fun s => s.actions.count .flush) (·.flushed)
      fun _ => True where
  start := trivial
  fresh := rfl
  silent := rfl
  push s kind s' _ hs := by
    have hs : s.step (.action kind.action) = some s' := hs
    simp only [RelayHost.step] at hs
    split_ifs at hs
    cases hs
    refine ⟨trivial, ?_, rfl⟩
    cases kind <;> simp [BarrierKind.action]
  step s l s' _ hcalls hs := by
    have hs : s.step l = some s' := hs
    cases l with
    | action a =>
      simp only [RelayHost.step] at hs
      split_ifs at hs
      cases hs
      refine ⟨trivial, ?_, rfl⟩
      cases a with
      | flush => cases hcalls
      | _ => simp
    | shut =>
      cases hs
      exact ⟨trivial, rfl, rfl⟩
    | relay l =>
      obtain ⟨relay, -, rfl⟩ := Option.map_eq_some_iff.1 hs
      exact ⟨trivial, rfl, rfl⟩

end Remote

open CallersState

/-- For every kind of receiver, in a run that handles no `Flushed` while a permit is stored, no
caller of `flush` is left behind. -/
theorem receivers_leave_none {ι B H M R E : Type} [DecidableEq ι] [StdSyncSendError E] [Message B]
    {Mi Ri Ei : ι → Type} [∀ i, StdSyncSendError (Ei i)] (limit : UInt64) (intoBoxed : R → B) :
    (∀ cfg ls, (servedCallers intoBoxed limit (bufferUnorderedPoller M R E cfg)
        BufferUnordered.view BufferUnordered.accepted).Throughout
          (Spaced (servedView intoBoxed BufferUnordered.view BufferUnordered.accepted)) ls →
      (servedCallers intoBoxed limit (bufferUnorderedPoller M R E cfg)
        BufferUnordered.view BufferUnordered.accepted).Always
          (ServedNoneLeft BufferUnordered.view BufferUnordered.accepted) ls)
    ∧ (∀ (f : SynchronizedHandler Mi Ri Ei H) h₀ i (intoBoxed : Ri i → B) ls,
      (servedCallers intoBoxed limit (synchronizedPoller f h₀ i)
        (SynchronizedItem.view i) fun s => (s.subs i).accepted).Throughout
          (Spaced (servedView intoBoxed (SynchronizedItem.view i) fun s => (s.subs i).accepted))
          ls →
      (servedCallers intoBoxed limit (synchronizedPoller f h₀ i)
        (SynchronizedItem.view i) fun s => (s.subs i).accepted).Always
          (ServedNoneLeft (SynchronizedItem.view i) fun s => (s.subs i).accepted) ls)
    ∧ (∀ cfg ls, (servedCallers intoBoxed limit
        (withPanics (bufferUnorderedBatchPoller M R E cfg) (BufferUnorderedBatched.panic cfg))
        BufferUnorderedBatched.view (·.core.accepted)).Throughout
          (Spaced (servedView intoBoxed BufferUnorderedBatched.view (·.core.accepted))) ls →
      (servedCallers intoBoxed limit
        (withPanics (bufferUnorderedBatchPoller M R E cfg) (BufferUnorderedBatched.panic cfg))
        BufferUnorderedBatched.view (·.core.accepted)).Always
          (ServedNoneLeft BufferUnorderedBatched.view (·.core.accepted)) ls)
    ∧ (∀ cfg ls, (servedCallers intoBoxed limit
        (withPanics (batchSynchronizedPoller M R E cfg) SynchronizedBatched.panic)
        SynchronizedBatched.view (·.core.accepted)).Throughout
          (Spaced (servedView intoBoxed SynchronizedBatched.view (·.core.accepted))) ls →
      (servedCallers intoBoxed limit
        (withPanics (batchSynchronizedPoller M R E cfg) SynchronizedBatched.panic)
        SynchronizedBatched.view (·.core.accepted)).Always
          (ServedNoneLeft SynchronizedBatched.view (·.core.accepted)) ls)
    ∧ ∀ ls, (relayCallers B).Throughout (Spaced (relayView B)) ls →
      (relayCallers B).Always (NoneLeft (·.actions.count .flush) (·.flushed)) ls :=
  ⟨fun cfg _ => always_noneLeft ((BufferUnordered.counted cfg).flushCount intoBoxed limit),
    fun f h₀ i g _ => always_noneLeft ((SynchronizedItem.counted f h₀ i).flushCount g limit),
    fun cfg _ => always_noneLeft ((BufferUnorderedBatched.counted cfg).flushCount intoBoxed limit),
    fun cfg _ => always_noneLeft ((SynchronizedBatched.counted cfg).flushCount intoBoxed limit),
    fun _ => always_noneLeft RelayHost.flushCount⟩

/-- Two calls of `flush` that are parked when their `Flushed`s are handled, one after the other, and
a third that finds its permit stored. -/
theorem receivers_leave_none_three_calls : (servedCallers (id : Unit → Unit) 1
    (bufferUnorderedPoller Unit Unit GenericError ⟨1⟩) BufferUnordered.view
    BufferUnordered.accepted).Always (ServedNoneLeft BufferUnordered.view BufferUnordered.accepted)
    [.start .flush, .push 0, .poll 0, .start .flush, .push 1, .poll 1, .start .flush, .push 2,
      .step (.run .recv), .step (.run .acquire), .step (.run .recv), .step (.run .acquire),
      .step .turn, .step .turn, .resume 1, .resume 0, .step (.run .recv), .step (.run .acquire),
      .step .turn, .poll 2] := by
  refine (@receivers_leave_none Unit Unit Unit Unit Unit GenericError _ _ ⟨fun _ => "unit"⟩
    (fun _ => Unit) (fun _ => Unit) (fun _ => GenericError) _ 1 id).1 _ _ ?_
  unfold Lts.Throughout
  iterate 20
    refine .cons (by rfl) ?_ ?_
    · first | exact trivial | exact fun _ => rfl
  exact trivial

/-- Two `Flushed`s handled before either caller has polled: the first caller takes the one permit
there is, and the second waits for good. -/
theorem second_flushed_strands_caller : ¬ (servedCallers (id : Unit → Unit) 1
    (bufferUnorderedPoller Unit Unit GenericError ⟨1⟩) BufferUnordered.view
    BufferUnordered.accepted).Always (ServedNoneLeft BufferUnordered.view BufferUnordered.accepted)
    [.start .flush, .push 0, .start .flush, .push 1, .step (.run .recv), .step (.run .acquire),
      .step (.run .recv), .step (.run .acquire), .step .turn, .step .turn, .poll 0, .poll 1] := by
  intro h
  have := h.last rfl (by decide) ⟨.flush, 1, .parked, false⟩ (by decide) rfl rfl
  revert this
  decide

end MessageBus
