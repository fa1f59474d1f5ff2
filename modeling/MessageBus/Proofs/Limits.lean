import MessageBus.Idle
import MessageBus.Proofs.Bounded

/-!
# Which limits admit

`try_reserve` compares the counter, an `i64`, with the limit cast to `i64`. The cast of a limit from
`2 ^ 63` on is negative, so such a receiver admits nobody; below that the comparison is that of the
two numbers, and the counter has room for one more. The relay's `try_reserve` compares two `u64`s.
-/

namespace MessageBus

namespace ReceiverContext

/-- What `try_reserve` does, told of numbers. -/
theorem tryReserve_isSome_iff {c : ReceiverContext} (h : 0 ≤ c.processing.toInt) :
    c.tryReserve.isSome = true
      ↔ c.processing.toInt < c.limit.toNat ∧ c.limit.toNat < 2 ^ 63 := by
  rw [← lt_toInt64_iff h]
  unfold tryReserve
  split_ifs with hlt <;> simp [hlt]

theorem tryReserve_eq_some {c c' : ReceiverContext} (h : c.tryReserve = some c') :
    c'.processing.toInt = c.processing.toInt + 1 ∧ c'.limit = c.limit := by
  unfold tryReserve at h
  split_ifs at h with hlt
  cases h
  exact ⟨toInt_add_one hlt, rfl⟩

end ReceiverContext

namespace IdleState

variable {M R E B σ ℓ : Type} [StdSyncSendError E] {intoBoxed : R → B} {limit : UInt64}
  {P : Lts σ (PollerLabel M ℓ)} {V : PollerView σ R E} {s s' : IdleState σ R E B}

theorem limit_step {l : IdleLabel M ℓ} (hs : s.step intoBoxed P V l = some s') :
    s'.bounded.served.wrapper.context.limit = s.bounded.served.wrapper.context.limit := by
  cases l with
  | call =>
    cases hs
    rfl
  | isIdling | notified | poll | resume | incrementProcessing =>
    simp only [step] at hs
    split at hs
    · cases hs
      rfl
    · cases hs
  | notifyWaiters =>
    simp only [step] at hs
    split_ifs at hs
    cases hs
    rfl
  | step l =>
    simp only [step] at hs
    split_ifs at hs
    obtain ⟨b, hb, rfl⟩ := Option.map_eq_some_iff.1 hs
    exact BoundedState.limit_step hb

theorem limit_of_reachable (h : (idleCallers intoBoxed limit P V).Reachable s) :
    s.bounded.served.wrapper.context.limit = limit :=
  Lts.invariant (J := fun s => s.bounded.served.wrapper.context.limit = limit) rfl
    (fun _ _ _ hinv hs => (limit_step hs).trans hinv) h

end IdleState

section Undisturbed

variable {M R E B σ ℓ : Type} [StdSyncSendError E] {intoBoxed : R → B} {limit : UInt64}
  {P : Lts σ (PollerLabel M ℓ)} {V : PollerView σ R E}

namespace BoundedState

variable {s : BoundedState σ R E B} {i : ℕ}

/-- The steps of a `try_reserve` that nothing comes between. -/
def undisturbed (s : BoundedState σ R E B) (i : ℕ) : List (BoundedLabel M ℓ) :=
  [.load i s.processing, .compare i, .compareExchange i]

/-- The task `i` has a permit, and the receiver the context that it leaves. -/
def withPermit (s : BoundedState σ R E B) (i : ℕ) (context : ReceiverContext) :
    BoundedState σ R E B :=
  { s with served.wrapper.context := context, senders := s.senders.set i .holding }

/-- Undisturbed, the steps of `try_reserve` are `ReceiverContext.tryReserve`. -/
theorem run_undisturbed (hi : s.senders[i]? = some .idle) :
    (boundedReceiver intoBoxed limit P V).runFrom s (undisturbed s i)
      = s.served.wrapper.context.tryReserve.map (s.withPermit i) := by
  have hlen := (List.getElem?_eq_some_iff.1 hi).1
  have hload : (boundedReceiver intoBoxed limit P V).step s (.load i s.processing)
      = some (s.setSender i (.loaded s.processing)) := by
    simp only [boundedReceiver, step_load hi]
  have hcompare : (boundedReceiver intoBoxed limit P V).step
      (s.setSender i (.loaded s.processing)) (.compare i)
      = some (s.setSender i (if s.processing < s.served.wrapper.context.limit.toInt64
          then .passed s.processing else .idle)) := by
    simp only [boundedReceiver, step_compare (getElem?_setSender hlen _), setSender_setSender]
    rfl
  rw [undisturbed, Lts.runFrom_cons hload, Lts.runFrom_cons hcompare]
  unfold ReceiverContext.tryReserve
  change _ = Option.map _ (if s.processing < s.served.wrapper.context.limit.toInt64 then _ else _)
  by_cases hlt : s.processing < s.served.wrapper.context.limit.toInt64
  · have hexchange : (boundedReceiver intoBoxed limit P V).step
        (s.setSender i (.passed s.processing)) (.compareExchange i)
        = some (((s.setSender i (.passed s.processing)).setProcessing
          (s.processing + 1)).setSender i .holding) := by
      simp only [boundedReceiver]
      exact step_compareExchange (getElem?_setSender hlen _)
    rw [if_pos hlt, if_pos hlt, Lts.runFrom_cons hexchange]
    simp [Lts.runFrom, withPermit, setProcessing, setSender, processing]
  · rw [if_neg hlt, if_neg hlt]
    simp [Lts.runFrom, boundedReceiver, step, getElem?_setSender hlen]

end BoundedState

namespace IdleState

variable {s : IdleState σ R E B} {i : ℕ}

/-- The same call beside the callers of `idle` and the forced sends. -/
def undisturbed (s : IdleState σ R E B) (i : ℕ) : List (IdleLabel M ℓ) :=
  (s.bounded.undisturbed i).map .step

theorem run_undisturbed (hi : s.bounded.senders[i]? = some .idle) :
    (idleCallers intoBoxed limit P V).runFrom s (undisturbed s i)
      = s.bounded.served.wrapper.context.tryReserve.map fun context =>
        { s with bounded := s.bounded.withPermit i context } := by
  have hmap := Lts.runFrom_map (M := boundedReceiver intoBoxed limit P V)
    (N := idleCallers intoBoxed limit P V) (fun bounded => { s with bounded }) .step
    (s.bounded.undisturbed i) ?_ s.bounded
  · rw [BoundedState.run_undisturbed hi, Option.map_map] at hmap
    exact hmap
  · intro l hl
    simp only [BoundedState.undisturbed, List.mem_cons, List.not_mem_nil, or_false] at hl
    rcases hl with rfl | rfl | rfl <;> exact fun _ => rfl

variable (intoBoxed limit P V) in
/-- An undisturbed `try_reserve` gives the task `i` a permit and raises the counter by one. -/
def Admits (s : IdleState σ R E B) (i : ℕ) : Prop :=
  ∃ s', (idleCallers intoBoxed limit P V).runFrom s (undisturbed s i) = some s' ∧
    s'.bounded.senders[i]? = some .holding ∧ s'.processing.toInt = s.processing.toInt + 1

theorem admits_iff (hi : s.bounded.senders[i]? = some .idle) :
    Admits intoBoxed limit P V s i
      ↔ s.bounded.served.wrapper.context.tryReserve.isSome = true := by
  have hlen := (List.getElem?_eq_some_iff.1 hi).1
  unfold Admits
  rw [run_undisturbed hi]
  constructor
  · rintro ⟨s', hs', -⟩
    obtain ⟨context, hcontext, -⟩ := Option.map_eq_some_iff.1 hs'
    exact Option.isSome_of_eq_some hcontext
  · intro h
    obtain ⟨context, hcontext⟩ := Option.isSome_iff_exists.1 h
    rw [hcontext]
    exact ⟨_, rfl, by simp [BoundedState.withPermit, hlen],
      (ReceiverContext.tryReserve_eq_some hcontext).1⟩

theorem admits_iff_lt (hr : (idleCallers intoBoxed limit P V).Reachable s)
    (h0 : 0 ≤ s.processing.toInt) (hi : s.bounded.senders[i]? = some .idle) :
    Admits intoBoxed limit P V s i
      ↔ s.processing.toInt < limit.toNat ∧ limit.toNat < 2 ^ 63 := by
  rw [admits_iff hi, ReceiverContext.tryReserve_isSome_iff h0, limit_of_reachable hr]
  exact Iff.rfl

variable (intoBoxed limit P V) in
/-- The task `i` is admitted exactly below the limit, and at an idle receiver by every limit but
`0`. -/
structure AdmitsExactly (s : IdleState σ R E B) (i : ℕ) : Prop where
  below : Admits intoBoxed limit P V s i ↔ s.processing.toInt < limit.toNat
  idle : s.processing = 0 → 1 ≤ limit.toNat → Admits intoBoxed limit P V s i

/-- In every reachable state, for every count that is not negative: admission is exact where the
limit fits the counter. -/
theorem admitsExactly_iff (hr : (idleCallers intoBoxed limit P V).Reachable s)
    (h0 : 0 ≤ s.processing.toInt) (hi : s.bounded.senders[i]? = some .idle) :
    AdmitsExactly intoBoxed limit P V s i ↔ limit.toNat < 2 ^ 63 := by
  have hadmits := admits_iff_lt hr h0 hi
  refine ⟨fun h => ?_, fun hlimit => ⟨hadmits.trans (and_iff_left hlimit), fun hzero hone => ?_⟩⟩
  · by_contra hlarge
    have hlt : s.processing.toInt < limit.toNat := by
      have := s.processing.toInt_lt
      omega
    exact hlarge (hadmits.1 (h.below.2 hlt)).2
  · refine hadmits.2 ⟨?_, hlimit⟩
    rw [hzero, Int64.toInt_zero]
    omega

/-- A receiver of limit 1 with a task about to send. -/
theorem admitsExactly_limit_one : ∃ s, (idleCallers (id : Unit → Unit) 1
      (bufferUnorderedPoller Unit Unit GenericError ⟨1⟩) BufferUnordered.view).run [.step .spawn]
      = some s ∧
    AdmitsExactly (id : Unit → Unit) 1 (bufferUnorderedPoller Unit Unit GenericError ⟨1⟩)
      BufferUnordered.view s 0 := by
  have hr : (idleCallers (id : Unit → Unit) 1 (bufferUnorderedPoller Unit Unit GenericError ⟨1⟩)
      BufferUnordered.view).run [.step .spawn] = some _ := rfl
  exact ⟨_, hr, (admitsExactly_iff (Lts.reachable_of_run hr) (by decide) rfl).2 (by decide)⟩

/-- The largest limit there is admits nobody to an idle receiver. -/
theorem largest_limit_admits_nobody : ¬ ∀ (limit : UInt64)
    (s : IdleState (BufferUnordered Unit Unit GenericError) Unit GenericError Unit) (i : ℕ),
    (idleCallers (id : Unit → Unit) limit (bufferUnorderedPoller Unit Unit GenericError ⟨1⟩)
      BufferUnordered.view).Reachable s →
    0 ≤ s.processing.toInt → s.processing.toInt ≤ 2 ^ 63 - 2 →
    s.bounded.senders[i]? = some .idle →
    AdmitsExactly (id : Unit → Unit) limit (bufferUnorderedPoller Unit Unit GenericError ⟨1⟩)
      BufferUnordered.view s i := by
  intro h
  have hr : (idleCallers (id : Unit → Unit) (-1)
      (bufferUnorderedPoller Unit Unit GenericError ⟨1⟩) BufferUnordered.view).run [.step .spawn]
      = some _ := rfl
  have hadmits := (h (-1) _ 0 (Lts.reachable_of_run hr) (by decide) (by decide) rfl).idle rfl
    (by decide)
  rw [admits_iff rfl] at hadmits
  exact absurd hadmits (by decide)

end IdleState

end Undisturbed

end MessageBus
