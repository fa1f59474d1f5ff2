import MessageBus.Proofs.Counted
import Mathlib.Algebra.Group.Int.Defs
import Mathlib.Algebra.Group.Nat.Defs
import Mathlib.Data.Int.Notation

/-!
# Backpressure

A sender raises the counter by the exchange alone, from a count below the limit, and every message
the queue takes was pushed with a permit. So the permits at hand and the messages without a handled
`Response` are within the counter (`BoundedInv`), whatever the poller does with the messages it has.
-/

namespace MessageBus

section Int64

/-- The cast of an unsigned limit wraps from `2 ^ 63` on. -/
theorem toInt_toInt64 (n : UInt64) :
    n.toInt64.toInt = if n.toNat < 2 ^ 63 then (n.toNat : ℤ) else n.toNat - 2 ^ 64 := by
  have heq : n.toInt64.toInt = (n.toNat : ℤ).bmod UInt64.size :=
    BitVec.toInt_eq_toNat_bmod n.toBitVec
  have hlt := n.toNat_lt
  rw [heq, Int.bmod_def]
  simp only [UInt64.size]
  split_ifs <;> omega

theorem toInt64_le (n : UInt64) : n.toInt64.toInt ≤ n.toNat := by
  rw [toInt_toInt64]
  split_ifs <;> omega

theorem toInt64_of_pos {n : UInt64} (h : 0 < n.toInt64.toInt) : n.toInt64.toInt = n.toNat := by
  have hlt := n.toNat_lt
  rw [toInt_toInt64] at h ⊢
  split_ifs at h ⊢ with hn
  · rfl
  · omega

theorem toInt64_of_lt {n : UInt64} (h : n.toNat < 2 ^ 63) : n.toInt64.toInt = n.toNat := by
  rw [toInt_toInt64, if_pos h]

/-- No count from `0` on is below the cast of a limit from `2 ^ 63` on. -/
theorem lt_toInt64_iff {a : Int64} (ha : 0 ≤ a.toInt) (n : UInt64) :
    a < n.toInt64 ↔ a.toInt < n.toNat ∧ n.toNat < 2 ^ 63 := by
  have hlt := n.toNat_lt
  rw [Int64.lt_iff_toInt_lt, toInt_toInt64]
  split_ifs <;> omega

theorem toInt_add_one {a b : Int64} (h : a < b) : (a + 1).toInt = a.toInt + 1 := by
  rw [Int64.lt_iff_toInt_lt] at h
  have h1 := a.le_toInt
  have h2 := b.toInt_lt
  rw [Int64.toInt_add, show (1 : Int64).toInt = 1 from rfl, Int.bmod_eq_of_le_mul_two]
  · omega
  · omega

theorem toInt_sub_one {a : Int64} (h : 0 < a.toInt) : (a - 1).toInt = a.toInt - 1 := by
  have h2 := a.toInt_lt
  rw [Int64.toInt_sub, show (1 : Int64).toInt = 1 from rfl, Int.bmod_eq_of_le_mul_two]
  · omega
  · omega

end Int64

section Turn

variable {R E B : Type} [StdSyncSendError E] (intoBoxed : R → B) (w : ReceiverWrapper)
  (chans : Channels R E B) {ev : Event R E}

theorem context_response (mid : UInt64) (res : Except (Error Unit E) R) :
    (response intoBoxed w chans mid res).1.context = w.context := by
  unfold response
  split
  · split <;> rfl
  · rfl

theorem limit_handleEvent :
    (handleEvent intoBoxed w chans ev).wrapper.context.limit = w.context.limit := by
  cases ev with
  | response mid res => simp only [handleEvent, context_response]
  | _ => rfl

theorem processing_handleEvent_poller (h : ev.fromPoller = true) :
    (handleEvent intoBoxed w chans ev).wrapper.context.processing = w.context.processing := by
  cases ev with
  | ready | flushed | synchronized | error => rfl
  | _ => cases h

theorem processing_handleEvent_response (h : ev.mid?.isSome = true) :
    (handleEvent intoBoxed w chans ev).wrapper.context.processing = w.context.processing - 1 := by
  cases ev with
  | response mid res => simp only [handleEvent, context_response]
  | _ => cases h

end Turn

section Bounded

variable {M R E B σ ℓ : Type} {limit : UInt64} {P : Lts σ (PollerLabel M ℓ)}
  {V : PollerView σ R E} {accepted : σ → List (Request M)} {load : σ → ℕ} {Inv : σ → Prop}
  {s s' : BoundedState σ R E B}

namespace BoundedState

/-- The permits held whose message is not pushed yet. -/
def permits (s : BoundedState σ R E B) : ℕ := s.senders.countP (· == .holding)

/-- The `Response`s the loop has handled. -/
def answered (V : PollerView σ R E) (s : BoundedState σ R E B) : ℕ :=
  responses ((V.stx s.served.poller).take s.served.heard)

end BoundedState

/-- The counter is between `0` and the limit, and covers the permits at hand and the messages that
are accepted and not answered; so the load, all queued, buffered or running, is within the limit. -/
structure Bounded (limit : UInt64) (V : PollerView σ R E) (accepted : σ → List (Request M))
    (load : σ → ℕ) (s : BoundedState σ R E B) : Prop where
  nonneg : 0 ≤ s.processing.toInt
  le_limit : s.processing.toInt ≤ limit.toNat
  covers : ((s.permits + requests (accepted s.served.poller) : ℕ) : ℤ)
    ≤ s.processing.toInt + s.answered V
  load_le : load s.served.poller ≤ limit.toNat

structure BoundedInv (limit : UInt64) (V : PollerView σ R E) (accepted : σ → List (Request M))
    (Inv : σ → Prop) (s : BoundedState σ R E B) : Prop where
  poller : Inv s.served.poller
  context : s.served.wrapper.context.limit = limit
  nonneg : 0 ≤ s.processing.toInt
  le_limit : s.processing.toInt ≤ limit.toNat
  heard : s.served.heard ≤ (V.stx s.served.poller).length
  covers : ((s.permits + requests (accepted s.served.poller) : ℕ) : ℤ)
    ≤ s.processing.toInt + s.answered V
  passed : ∀ n, .passed n ∈ s.senders → n < limit.toInt64

theorem Counted.bounded (hP : Counted P V accepted load Inv)
    (h : BoundedInv limit V accepted Inv s) : Bounded limit V accepted load s := by
  refine ⟨h.nonneg, h.le_limit, h.covers, ?_⟩
  have h1 := h.covers
  have h2 := h.le_limit
  have h3 := hP.load_le _ h.poller
  have h4 : s.answered V ≤ responses (V.stx s.served.poller) :=
    responses_le_of_prefix (List.take_prefix _ _)
  omega

/-- The counter covers the permits at hand and the messages accepted and not answered, and a sender
past the comparison has seen a count below the limit. -/
structure CoveredInv (V : PollerView σ R E) (accepted : σ → List (Request M)) (Inv : σ → Prop)
    (s : BoundedState σ R E B) : Prop where
  poller : Inv s.served.poller
  nonneg : 0 ≤ s.processing.toInt
  heard : s.served.heard ≤ (V.stx s.served.poller).length
  covers : ((s.permits + requests (accepted s.served.poller) : ℕ) : ℤ)
    ≤ s.processing.toInt + s.answered V
  passed : ∀ n, .passed n ∈ s.senders → n < s.served.wrapper.context.limit.toInt64

theorem BoundedInv.covered (h : BoundedInv limit V accepted Inv s) :
    CoveredInv V accepted Inv s :=
  ⟨h.poller, h.nonneg, h.heard, h.covers, h.context ▸ h.passed⟩

/-- A sender moves on; it gives up a permit or takes one. -/
theorem permits_setSender {i : ℕ} {x : Sender} (hi : s.senders[i]? = some x) (y : Sender) :
    (s.setSender i y).permits + (if x == .holding then 1 else 0)
      = s.permits + if y == .holding then 1 else 0 :=
  Pool.countP_set_add hi

@[simp] theorem BoundedState.setSender_setSender (i : ℕ) (x y : Sender) :
    (s.setSender i x).setSender i y = s.setSender i y := by
  simp [setSender]

theorem BoundedState.getElem?_setSender {i : ℕ} (hi : i < s.senders.length) (x : Sender) :
    (s.setSender i x).senders[i]? = some x := by
  simp [setSender, hi]

/-- The poller adds to its stream behind what the loop has handled. -/
theorem answered_poller {p : σ} (hheard : s.served.heard ≤ (V.stx s.served.poller).length)
    (hstx : V.stx s.served.poller <+: V.stx p) :
    BoundedState.answered V { s with served.poller := p } = s.answered V := by
  obtain ⟨evs, hevs⟩ := hstx
  simp only [BoundedState.answered]
  rw [← hevs, List.take_append_of_le_length hheard]

/-- The poller takes a step, and what it then has accepted is covered. -/
theorem CoveredInv.poller_step (h : CoveredInv V accepted Inv s) {p : σ} (hinv : Inv p)
    (hstx : V.stx s.served.poller <+: V.stx p)
    (hcovers : ((s.permits + requests (accepted p) : ℕ) : ℤ)
      ≤ s.processing.toInt + s.answered V) :
    CoveredInv V accepted Inv { s with served.poller := p } := by
  refine ⟨hinv, h.nonneg, Nat.le_trans h.heard hstx.length_le, ?_, h.passed⟩
  rw [answered_poller h.heard hstx]
  exact hcovers

/-- A sender moves on, and the counter with it: it goes up by no less than the permits. -/
theorem CoveredInv.setSender (h : CoveredInv V accepted Inv s) {i : ℕ} {x y : Sender}
    (hi : s.senders[i]? = some x)
    (hy : ∀ n, y = .passed n → n < s.served.wrapper.context.limit.toInt64) {n : Int64}
    (hnonneg : 0 ≤ n.toInt)
    (hn : s.processing.toInt + (if y == .holding then 1 else 0)
      ≤ n.toInt + if x == .holding then 1 else 0) :
    CoveredInv V accepted Inv ((s.setProcessing n).setSender i y) := by
  refine ⟨h.poller, hnonneg, h.heard, ?_, fun m hm => ?_⟩
  · have hcovers := h.covers
    have hsender := permits_setSender hi y
    show (((s.setSender i y).permits + requests (accepted s.served.poller) : ℕ) : ℤ)
      ≤ n.toInt + s.answered V
    split_ifs at hn hsender <;> omega
  · rcases List.mem_or_eq_of_mem_set hm with hm | hm
    · exact h.passed m hm
    · exact hy m hm.symm

/-- A sender that takes no permit moves on. -/
theorem CoveredInv.move (h : CoveredInv V accepted Inv s) {i : ℕ} {x y : Sender}
    (hi : s.senders[i]? = some x) (hyh : y ≠ .holding)
    (hy : ∀ n, y = .passed n → n < s.served.wrapper.context.limit.toInt64) :
    CoveredInv V accepted Inv (s.setSender i y) := by
  have hfalse : (y == Sender.holding) = false := by simpa using hyh
  refine h.setSender (n := s.processing) hi hy h.nonneg ?_
  simp only [hfalse, Bool.false_eq_true, if_false]
  split_ifs <;> omega

/-- A permit is a unit of the counter. -/
theorem Counted.processing_pos (hP : Counted P V accepted load Inv)
    (h : CoveredInv V accepted Inv s) {i : ℕ} (hi : s.senders[i]? = some .holding) :
    0 < s.processing.toInt := by
  have hcovers := h.covers
  have hload := hP.load_le _ h.poller
  have hanswered : s.answered V ≤ responses (V.stx s.served.poller) :=
    responses_le_of_prefix (List.take_prefix _ _)
  have hpos : 0 < s.permits := List.countP_pos_iff.2 ⟨_, List.mem_of_getElem? hi, rfl⟩
  omega

/-- A `Response` that is not handled is a unit of the counter. -/
theorem Counted.response_pos (hP : Counted P V accepted load Inv)
    (h : CoveredInv V accepted Inv s) {ev : Event R E}
    (hev : (V.stx s.served.poller)[s.served.heard]? = some ev) (hmid : ev.mid?.isSome = true) :
    0 < s.processing.toInt := by
  have hcovers := h.covers
  have hload := hP.load_le _ h.poller
  have hle : responses ((V.stx s.served.poller).take (s.served.heard + 1))
      ≤ responses (V.stx s.served.poller) := responses_le_of_prefix (List.take_prefix _ _)
  rw [responses_take_succ hev, responses_singleton hmid] at hle
  unfold BoundedState.answered at hcovers
  omega

/-- What a poller has on its stream is a `Response` or an event the counter does not see. -/
theorem Counted.plain (hP : Counted P V accepted load Inv) {p : σ} (h : Inv p) {i : ℕ}
    {ev : Event R E} (hev : (V.stx p)[i]? = some ev) :
    ev.mid?.isSome = true ∨ ev.fromPoller = true :=
  hP.quiet _ h ev (List.mem_of_getElem? hev)

variable [StdSyncSendError E] {intoBoxed : R → B}

/-- Handling a `Response` moves a unit of the counter to what is answered. -/
theorem Counted.turn_units (hP : Counted P V accepted load Inv)
    (h : CoveredInv V accepted Inv s) {ev : Event R E}
    (hev : (V.stx s.served.poller)[s.served.heard]? = some ev) {w : ReceiverWrapper}
    (hw : w = (handleEvent intoBoxed s.served.wrapper s.served.chans ev).wrapper) :
    w.context.processing.toInt
        + (responses ((V.stx s.served.poller).take (s.served.heard + 1)) : ℤ)
      = s.processing.toInt + s.answered V ∧
    0 ≤ w.context.processing.toInt ∧ w.context.processing.toInt ≤ s.processing.toInt := by
  have hnonneg := h.nonneg
  rw [responses_take_succ hev, BoundedState.answered]
  rcases hP.plain h.poller hev with hmid | hpoller
  · have hone := responses_singleton hmid
    have hpos := hP.response_pos h hev hmid
    have hproc : w.context.processing.toInt = s.processing.toInt - 1 := by
      rw [hw, processing_handleEvent_response _ _ _ hmid]
      exact toInt_sub_one hpos
    omega
  · have hzero : responses [ev] = 0 := by simp [responses, mid_fromPoller hpoller]
    have hproc : w.context.processing = s.processing := by
      rw [hw, processing_handleEvent_poller _ _ _ hpoller]
      rfl
    rw [hproc]
    omega

/-- The loop handles an event, which lowers the counter where it is a `Response`. -/
theorem CoveredInv.turn (hP : Counted P V accepted load Inv)
    (h : CoveredInv V accepted Inv s) {ev : Event R E}
    (hev : (V.stx s.served.poller)[s.served.heard]? = some ev) {w : ReceiverWrapper}
    (hw : w = (handleEvent intoBoxed s.served.wrapper s.served.chans ev).wrapper)
    (chans : Channels R E B) (loop : Loop) :
    CoveredInv V accepted Inv { s with
      served := ⟨s.served.poller, w, chans, loop, s.served.heard + 1⟩ } := by
  obtain ⟨hlt, -⟩ := List.getElem?_eq_some_iff.1 hev
  obtain ⟨hunits, hnonneg, -⟩ := hP.turn_units h hev hw
  have hcovers := h.covers
  have hctx : w.context.limit = s.served.wrapper.context.limit := by rw [hw, limit_handleEvent]
  refine ⟨h.poller, hnonneg, hlt, ?_, hctx ▸ h.passed⟩
  show ((s.permits + requests (accepted s.served.poller) : ℕ) : ℤ) ≤ w.context.processing.toInt
    + (responses ((V.stx s.served.poller).take (s.served.heard + 1)) : ℤ)
  omega

/-- Any step but a send of the receiver under the senders. -/
theorem covered_serve (hP : Counted P V accepted load Inv)
    (h : CoveredInv V accepted Inv s) {l : ServedLabel M ℓ} (hl : l.sends = false)
    {served : ServedState σ R E B} (hs : s.served.step intoBoxed P V l = some served) :
    CoveredInv V accepted Inv { s with served } := by
  cases l with
  | push item =>
    obtain ⟨p, hp, rfl⟩ := Option.map_eq_some_iff.1 hs
    obtain ⟨hacc, hstx⟩ := hP.push _ _ _ hp
    refine h.poller_step (hP.step _ _ _ h.poller hp) (hstx ▸ List.prefix_rfl) ?_
    rw [hacc, requests_append]
    cases item with
    | action a => exact h.covers
    | request mid msg req => cases hl
  | run l =>
    obtain ⟨p, hp, rfl⟩ := Option.map_eq_some_iff.1 hs
    obtain ⟨hacc, hstx⟩ := hP.run _ _ _ hp
    exact h.poller_step (hP.step _ _ _ h.poller hp) hstx (hacc ▸ h.covers)
  | turn =>
    simp only [ServedState.step] at hs
    split_ifs at hs
    obtain ⟨ev, hev, rfl⟩ := Option.map_eq_some_iff.1 hs
    exact h.turn hP hev rfl _ _
  | endStream =>
    simp only [ServedState.step] at hs
    split_ifs at hs
    cases hs
    exact ⟨h.poller, h.nonneg, h.heard, h.covers, h.passed⟩
  | listen key w =>
    obtain ⟨waiters, -, rfl⟩ := Option.map_eq_some_iff.1 hs
    exact ⟨h.poller, h.nonneg, h.heard, h.covers, h.passed⟩
  | hangUp tx =>
    cases hs
    exact ⟨h.poller, h.nonneg, h.heard, h.covers, h.passed⟩

/-- Everything a step of the senders and the receiver can do. -/
inductive BoundedState.Move (intoBoxed : R → B) (P : Lts σ (PollerLabel M ℓ))
    (V : PollerView σ R E) (s : BoundedState σ R E B) :
    BoundedLabel M ℓ → BoundedState σ R E B → Prop
  | spawn : Move intoBoxed P V s .spawn { s with senders := s.senders ++ [.idle] }
  | load {i : ℕ} (count : Int64) : s.senders[i]? = some .idle →
      Move intoBoxed P V s (.load i count) (s.setSender i (.loaded count))
  | pass {i : ℕ} {count : Int64} : s.senders[i]? = some (.loaded count) →
      count < s.served.wrapper.context.limit.toInt64 →
      Move intoBoxed P V s (.compare i) (s.setSender i (.passed count))
  | refuse {i : ℕ} {count : Int64} : s.senders[i]? = some (.loaded count) →
      Move intoBoxed P V s (.compare i) (s.setSender i .idle)
  | exchange {i : ℕ} : s.senders[i]? = some (.passed s.processing) →
      Move intoBoxed P V s (.compareExchange i)
        ((s.setProcessing (s.processing + 1)).setSender i .holding)
  | retry {i : ℕ} {count : Int64} : s.senders[i]? = some (.passed count) →
      Move intoBoxed P V s (.compareExchange i) (s.setSender i .idle)
  | dropPermit {i : ℕ} : s.senders[i]? = some .holding →
      Move intoBoxed P V s (.dropPermit i)
        ((s.setProcessing (s.processing - 1)).setSender i .idle)
  | push {i : ℕ} {mid : UInt64} {msg : M} {req : Bool} (p : σ) : s.senders[i]? = some .holding →
      P.step s.served.poller (.push (.request mid msg req)) = some p →
      Move intoBoxed P V s (.push i mid msg req true)
        { s.setSender i .pushed with served.poller := p }
  | lose {i : ℕ} {mid : UInt64} {msg : M} {req : Bool} : s.senders[i]? = some .holding →
      Move intoBoxed P V s (.push i mid msg req false) (s.setSender i .pushed)
  | mark {i : ℕ} : s.senders[i]? = some .pushed → Move intoBoxed P V s (.mark i)
      { s.setSender i .idle with served.wrapper.context.needFlush := true }
  | serve {l : ServedLabel M ℓ} (served : ServedState σ R E B) : l.sends = false →
      s.served.step intoBoxed P V l = some served →
      Move intoBoxed P V s (.serve l) { s with served }

theorem BoundedState.move {l : BoundedLabel M ℓ} (hs : s.step intoBoxed P V l = some s') :
    Move intoBoxed P V s l s' := by
  cases l with
  | spawn =>
    cases hs
    exact .spawn
  | load i count =>
    simp only [step] at hs
    split at hs
    · cases hs
      exact .load count ‹_›
    · cases hs
  | compare i =>
    simp only [step] at hs
    split at hs
    · cases hs
      split_ifs with hlt
      · exact .pass ‹_› hlt
      · exact .refuse ‹_›
    · cases hs
  | compareExchange i =>
    simp only [step] at hs
    split at hs
    · rename_i count hi
      cases hs
      split_ifs with heq
      · subst heq
        exact .exchange hi
      · exact .retry hi
    · cases hs
  | dropPermit i =>
    simp only [step] at hs
    split at hs
    · cases hs
      exact .dropPermit ‹_›
    · cases hs
  | push i mid msg req accepted =>
    simp only [step] at hs
    split at hs
    · cases accepted with
      | true =>
        obtain ⟨served, hserved, rfl⟩ := Option.map_eq_some_iff.1 hs
        obtain ⟨p, hp, rfl⟩ := Option.map_eq_some_iff.1 hserved
        exact .push p ‹_› hp
      | false =>
        cases hs
        exact .lose ‹_›
    · cases hs
  | mark i =>
    simp only [step] at hs
    split at hs
    · cases hs
      exact .mark ‹_›
    · cases hs
  | serve l =>
    simp only [step] at hs
    split_ifs at hs with hl
    obtain ⟨served, hserved, rfl⟩ := Option.map_eq_some_iff.1 hs
    exact .serve served (by simpa using hl) hserved

section Enabled

variable {i : ℕ}

theorem BoundedState.step_load (hi : s.senders[i]? = some .idle) (count : Int64) :
    s.step intoBoxed P V (.load i count) = some (s.setSender i (.loaded count)) := by
  simp only [step, hi]

theorem BoundedState.step_compare {count : Int64} (hi : s.senders[i]? = some (.loaded count)) :
    s.step intoBoxed P V (.compare i) = some (s.setSender i
      (if count < s.served.wrapper.context.limit.toInt64 then .passed count else .idle)) := by
  simp only [step, hi]

theorem BoundedState.step_compareExchange (hi : s.senders[i]? = some (.passed s.processing)) :
    s.step intoBoxed P V (.compareExchange i)
      = some ((s.setProcessing (s.processing + 1)).setSender i .holding) := by
  simp only [step, hi, if_true]

end Enabled

theorem covered_step (hP : Counted P V accepted load Inv) (h : CoveredInv V accepted Inv s)
    {l : BoundedLabel M ℓ} (hs : s.step intoBoxed P V l = some s') :
    CoveredInv V accepted Inv s' := by
  cases BoundedState.move hs with
  | spawn =>
    have hpermits : BoundedState.permits { s with senders := s.senders ++ [.idle] }
        = s.permits := by
      simp [BoundedState.permits]
    refine ⟨h.poller, h.nonneg, h.heard, hpermits ▸ h.covers, fun n hn => ?_⟩
    exact h.passed n (by simpa using hn)
  | load count hi => exact h.move hi (by simp) (by simp)
  | pass hi hlt =>
    refine h.move hi (by simp) fun n hn => ?_
    cases hn
    exact hlt
  | refuse hi => exact h.move hi (by simp) (by simp)
  | exchange hi =>
    have hadd := toInt_add_one (h.passed _ (List.mem_of_getElem? hi))
    have hnonneg := h.nonneg
    refine h.setSender hi (by simp) ?_ ?_
    · omega
    · simp only [beq_iff_eq, reduceCtorEq, if_false, if_true]
      omega
  | retry hi => exact h.move hi (by simp) (by simp)
  | dropPermit hi =>
    have hpos := hP.processing_pos h hi
    have hsub := toInt_sub_one hpos
    refine h.setSender hi (by simp) ?_ ?_
    · omega
    · simp only [beq_iff_eq, reduceCtorEq, if_false, if_true]
      omega
  | @push i mid msg req p hi hp =>
    have hmoved := h.move (y := .pushed) hi (by simp) (by simp)
    obtain ⟨hacc, hstx⟩ := hP.push _ _ _ hp
    have hsender := permits_setSender hi .pushed
    simp only [beq_iff_eq, reduceCtorEq, if_false, if_true] at hsender
    have hcovers := h.covers
    refine hmoved.poller_step (hP.step _ _ _ h.poller hp) (hstx ▸ List.prefix_rfl) ?_
    rw [hacc, requests_append, show requests [.request mid msg req] = 1 from rfl]
    show _ ≤ s.processing.toInt + s.answered V
    omega
  | lose hi => exact h.move hi (by simp) (by simp)
  | mark hi =>
    have := h.move (y := .idle) hi (by simp) (by simp)
    exact ⟨this.poller, this.nonneg, this.heard, this.covers, this.passed⟩
  | serve served hl hserved => exact covered_serve hP h hl hserved

/-- What a step makes of the counter. -/
inductive Counts (V : PollerView σ R E) (s : BoundedState σ R E B) :
    BoundedLabel M ℓ → Int64 → Prop
  | same (l : BoundedLabel M ℓ) : Counts V s l s.processing
  | exchange {i : ℕ} : s.senders[i]? = some (.passed s.processing) →
      Counts V s (.compareExchange i) (s.processing + 1)
  | dropPermit {i : ℕ} : s.senders[i]? = some .holding →
      Counts V s (.dropPermit i) (s.processing - 1)
  | respond (ev : Event R E) : (V.stx s.served.poller)[s.served.heard]? = some ev →
      ev.mid?.isSome = true → Counts V s (.serve .turn) (s.processing - 1)

theorem counts_step (hP : Counted P V accepted load Inv) (h : Inv s.served.poller)
    {l : BoundedLabel M ℓ} (hs : s.step intoBoxed P V l = some s') :
    Counts V s l s'.processing := by
  cases BoundedState.move hs with
  | exchange hi => exact .exchange hi
  | dropPermit hi => exact .dropPermit hi
  | @serve l served hl hserved =>
    cases l with
    | turn =>
      simp only [ServedState.step] at hserved
      split_ifs at hserved
      obtain ⟨ev, hev, rfl⟩ := Option.map_eq_some_iff.1 hserved
      rcases hP.plain h hev with hmid | hpoller
      · have hproc := processing_handleEvent_response intoBoxed s.served.wrapper s.served.chans hmid
        exact (congrArg (Counts V s _) hproc).mpr (.respond ev hev hmid)
      · have hproc := processing_handleEvent_poller intoBoxed s.served.wrapper s.served.chans
          hpoller
        exact (congrArg (Counts V s _) hproc).mpr (.same _)
    | push item =>
      obtain ⟨p, -, rfl⟩ := Option.map_eq_some_iff.1 hserved
      exact .same _
    | run l =>
      obtain ⟨p, -, rfl⟩ := Option.map_eq_some_iff.1 hserved
      exact .same _
    | endStream =>
      simp only [ServedState.step] at hserved
      split_ifs at hserved
      cases hserved
      exact .same _
    | listen key w =>
      obtain ⟨waiters, -, rfl⟩ := Option.map_eq_some_iff.1 hserved
      exact .same _
    | hangUp tx =>
      cases hserved
      exact .same _
  | _ => exact .same _

/-- The limit is what the receiver was built with. -/
theorem ServedState.limit_step {s s' : ServedState σ R E B} {l : ServedLabel M ℓ}
    (hs : s.step intoBoxed P V l = some s') :
    s'.wrapper.context.limit = s.wrapper.context.limit := by
  cases l with
  | push | run | listen =>
    obtain ⟨_, -, rfl⟩ := Option.map_eq_some_iff.1 hs
    rfl
  | turn =>
    simp only [ServedState.step] at hs
    split_ifs at hs
    obtain ⟨ev, -, rfl⟩ := Option.map_eq_some_iff.1 hs
    exact limit_handleEvent intoBoxed _ _
  | endStream =>
    simp only [ServedState.step] at hs
    split_ifs at hs
    cases hs
    rfl
  | hangUp tx =>
    cases hs
    rfl

theorem BoundedState.limit_step {l : BoundedLabel M ℓ} (hs : s.step intoBoxed P V l = some s') :
    s'.served.wrapper.context.limit = s.served.wrapper.context.limit := by
  cases move hs with
  | serve served hl hserved => exact ServedState.limit_step hserved
  | _ => rfl

theorem boundedInv_step (hP : Counted P V accepted load Inv)
    (h : BoundedInv limit V accepted Inv s) {l : BoundedLabel M ℓ}
    (hs : (boundedReceiver intoBoxed limit P V).step s l = some s') :
    BoundedInv limit V accepted Inv s' := by
  have hcovered := covered_step hP h.covered hs
  have hcounts := counts_step hP h.poller hs
  have hcontext := (BoundedState.limit_step hs).trans h.context
  refine ⟨hcovered.poller, hcontext, hcovered.nonneg, ?_, hcovered.heard, hcovered.covers,
    hcontext ▸ hcovered.passed⟩
  have hle := h.le_limit
  generalize s'.processing = n at hcounts
  cases hcounts with
  | same => exact hle
  | exchange hi =>
    have hlt := h.passed _ (List.mem_of_getElem? hi)
    have hadd := toInt_add_one hlt
    have hlim := toInt64_le limit
    rw [Int64.lt_iff_toInt_lt] at hlt
    omega
  | dropPermit hi =>
    have hsub := toInt_sub_one (hP.processing_pos h.covered hi)
    omega
  | respond ev hev hmid =>
    have hsub := toInt_sub_one (hP.response_pos h.covered hev hmid)
    omega

/-- Whatever the poller, the receiver stays within its limit. -/
theorem Counted.bounded_of_reachable (hP : Counted P V accepted load Inv)
    (h : (boundedReceiver intoBoxed limit P V).Reachable s) : Bounded limit V accepted load s := by
  refine hP.bounded (Lts.invariant (J := BoundedInv limit V accepted Inv) ?_
    (fun _ _ _ hinv hs => boundedInv_step hP hinv hs) h)
  refine ⟨hP.start, rfl, Int.le_refl 0, Int.natCast_nonneg _, Nat.zero_le _, ?_, nofun⟩
  have hfresh : requests (accepted P.start) = 0 := by rw [hP.fresh]; rfl
  show ((0 + requests (accepted P.start) : ℕ) : ℤ) ≤ 0 + _
  omega

end Bounded

/-- For every kind of local receiver, whatever its limit and whoever sends with permits: the counter
stays between `0` and the limit, and what is held, queued, buffered or running stays within it. -/
theorem receivers_bounded {ι B H M R E : Type} [DecidableEq ι] [StdSyncSendError E]
    {Mi Ri Ei : ι → Type} [∀ i, StdSyncSendError (Ei i)] (limit : UInt64) (intoBoxed : R → B) :
    (∀ cfg s, (boundedReceiver intoBoxed limit (bufferUnorderedPoller M R E cfg)
        BufferUnordered.view).Reachable s →
      Bounded limit BufferUnordered.view BufferUnordered.accepted BufferUnordered.load s)
    ∧ (∀ (f : SynchronizedHandler Mi Ri Ei H) h₀ i (intoBoxed : Ri i → B) s,
      (boundedReceiver intoBoxed limit (synchronizedPoller f h₀ i)
        (SynchronizedItem.view i)).Reachable s →
      Bounded limit (SynchronizedItem.view i) (fun s => (s.subs i).accepted)
        (fun s => (s.subs i).load) s)
    ∧ (∀ cfg s, (boundedReceiver intoBoxed limit
        (withPanics (bufferUnorderedBatchPoller M R E cfg) (BufferUnorderedBatched.panic cfg))
        BufferUnorderedBatched.view).Reachable s →
      Bounded limit BufferUnorderedBatched.view (fun s => s.core.accepted)
        BufferUnorderedBatched.load s)
    ∧ ∀ cfg s, (boundedReceiver intoBoxed limit
        (withPanics (batchSynchronizedPoller M R E cfg) SynchronizedBatched.panic)
        SynchronizedBatched.view).Reachable s →
      Bounded limit SynchronizedBatched.view (fun s => s.core.accepted) (fun s => s.core.load) s :=
  ⟨fun cfg _ => (BufferUnordered.counted cfg).bounded_of_reachable,
    fun f h₀ i _ _ => (SynchronizedItem.counted f h₀ i).bounded_of_reachable,
    fun cfg _ => (BufferUnorderedBatched.counted cfg).bounded_of_reachable,
    fun cfg _ => (SynchronizedBatched.counted cfg).bounded_of_reachable⟩

/-- One permit of one, its message in hand. -/
theorem bounded_one_permit : ∃ s : BoundedState (BufferUnordered Unit Unit GenericError) Unit
      GenericError Unit,
    s.processing = 1 ∧ s.served.poller.load = 1
      ∧ Bounded 1 BufferUnordered.view BufferUnordered.accepted BufferUnordered.load s := by
  have hr : (boundedReceiver (id : Unit → Unit) 1 (bufferUnorderedPoller Unit Unit GenericError ⟨1⟩)
      BufferUnordered.view).run
      [.spawn, .load 0 0, .compare 0, .compareExchange 0, .push 0 1 () false true, .mark 0,
        .serve (.run .recv)] = some _ := rfl
  exact ⟨_, rfl, rfl, (@receivers_bounded Unit Unit Unit Unit Unit GenericError _ _
    (fun _ => Unit) (fun _ => Unit) (fun _ => GenericError) _ 1 id).1 _ _
    (Lts.reachable_of_run hr)⟩

end MessageBus
