import MessageBus.Backpressure
import MessageBus.Proofs.BatchClose
import MessageBus.Proofs.Bounded

/-!
# When backpressure deadlocks a batch

Under tasks that only send, the counter is exactly the permits in hand and the messages without a
handled `Response` (`Even`). So a receiver that is wedged has a slot to give, or a sender that
holds one, unless its batches are larger than its limit (`not_trapped`). Where they are, senders
that fill the limit are never answered (`trapped_of_full`).
-/

namespace MessageBus

variable {M R E B σ ℓ : Type}

/-- With the tasks done, what is taken and not answered is in the buffer. -/
theorem BatchCore.count_of_done {c : BatchCore M R E} {b : ℕ}
    (hs : Shows b c.batches c.buffered c.taken) (hc : Conserved c) (hd : c.Done) :
    responses c.stx + c.bufferMid.length = requests c.taken := by
  have hst := (hc.of_done hd).1.length_eq
  obtain ⟨hbatch, hbuffer⟩ := hs
  have hlength := congrArg (fun batch => batch.mids.length) hbuffer
  have hflat := congrArg List.length (Batching.flatten_split b (c.taken.filterMap Request.cmd?))
  simp only [hbatch, Batch.of, List.flatMap_def, List.map_map, Function.comp_def,
    List.length_flatten, List.length_map, List.length_append, BatchCore.buffered] at *
  rw [responses, requests, mids_accepted, List.length_map, ← hflat, ← hlength, hst]

/-- What a task that only sends, or the receiver itself, does. -/
def BoundedLabel.Sends : BoundedLabel M ℓ → Prop
  | dropPermit _ => False
  | push _ _ _ _ accepted => accepted = true
  | serve (.run _) | serve .turn => True
  | serve _ => False
  | _ => True

section Even

variable {limit : UInt64} {P : Lts σ (PollerLabel M ℓ)} {V : PollerView σ R E}
  {accepted : σ → List (Request M)} {load : σ → ℕ} {Inv : σ → Prop}
  {s s' : BoundedState σ R E B}

/-- The counter has no unit but those of permits and of messages that are not answered, and is
raised from below the limit only. -/
structure Even (limit : UInt64) (V : PollerView σ R E) (accepted : σ → List (Request M))
    (s : BoundedState σ R E B) : Prop where
  even : s.processing.toInt + s.answered V
    ≤ ((s.permits + requests (accepted s.served.poller) : ℕ) : ℤ)
  low : s.processing.toInt = 0 ∨ s.processing.toInt ≤ limit.toInt64.toInt

/-- A sender moves on, and the counter with it: it goes up by no more than the permits. -/
theorem Even.setSender (h : Even limit V accepted s) {i : ℕ} {x y : Sender}
    (hi : s.senders[i]? = some x) {n : Int64}
    (hn : n.toInt + (if x == .holding then 1 else 0)
      ≤ s.processing.toInt + if y == .holding then 1 else 0)
    (hlow : n.toInt = 0 ∨ n.toInt ≤ limit.toInt64.toInt) :
    Even limit V accepted ((s.setProcessing n).setSender i y) := by
  refine ⟨?_, hlow⟩
  have heven := h.even
  have hsender := permits_setSender hi y
  show n.toInt + s.answered V
    ≤ (((s.setSender i y).permits + requests (accepted s.served.poller) : ℕ) : ℤ)
  split_ifs at hn hsender <;> omega

theorem Even.move (h : Even limit V accepted s) {i : ℕ} {x y : Sender}
    (hi : s.senders[i]? = some x) (hx : x ≠ .holding) :
    Even limit V accepted (s.setSender i y) := by
  have hfalse : (x == Sender.holding) = false := by simpa using hx
  refine h.setSender (n := s.processing) hi ?_ h.low
  simp only [hfalse, Bool.false_eq_true, if_false]
  split_ifs <;> omega

variable [StdSyncSendError E] {intoBoxed : R → B}

theorem Even.turn (h : Even limit V accepted s) (hP : Counted P V accepted load Inv)
    (hb : BoundedInv limit V accepted Inv s) {ev : Event R E}
    (hev : (V.stx s.served.poller)[s.served.heard]? = some ev) {w : ReceiverWrapper}
    (hw : w = (handleEvent intoBoxed s.served.wrapper s.served.chans ev).wrapper)
    (chans : Channels R E B) (loop : Loop) :
    Even limit V accepted { s with
      served := ⟨s.served.poller, w, chans, loop, s.served.heard + 1⟩ } := by
  obtain ⟨hunits, hnonneg, hle⟩ := hP.turn_units hb.covered hev hw
  have heven := h.even
  have hlow := h.low
  refine ⟨?_, ?_⟩
  · show w.context.processing.toInt
        + (responses ((V.stx s.served.poller).take (s.served.heard + 1)) : ℤ)
      ≤ ((s.permits + requests (accepted s.served.poller) : ℕ) : ℤ)
    omega
  · show w.context.processing.toInt = 0 ∨ w.context.processing.toInt ≤ limit.toInt64.toInt
    omega

/-- What only sends keeps the counter even. -/
theorem even_step (h : Even limit V accepted s) (hP : Counted P V accepted load Inv)
    (hb : BoundedInv limit V accepted Inv s) {l : BoundedLabel M ℓ} (hl : l.Sends)
    (hs : s.step intoBoxed P V l = some s') : Even limit V accepted s' := by
  cases BoundedState.move hs with
  | spawn =>
    have hpermits : BoundedState.permits { s with senders := s.senders ++ [.idle] }
        = s.permits := by
      simp [BoundedState.permits]
    exact ⟨hpermits ▸ h.even, h.low⟩
  | load _ hi | pass hi | refuse hi | retry hi => exact h.move hi (by simp)
  | exchange hi =>
    have hlt := hb.passed _ (List.mem_of_getElem? hi)
    have hadd := toInt_add_one hlt
    rw [Int64.lt_iff_toInt_lt] at hlt
    refine h.setSender hi ?_ (.inr ?_)
    · simp [hadd]
    · omega
  | dropPermit => exact absurd hl id
  | @push i mid msg req p hi hp =>
    obtain ⟨hacc, hstx⟩ := hP.push _ _ _ hp
    have hsender := permits_setSender hi .pushed
    have heven := h.even
    simp only [beq_iff_eq, reduceCtorEq, if_false, if_true] at hsender
    refine ⟨?_, h.low⟩
    have hans := answered_poller (s := s.setSender i .pushed) hb.heard
      (hstx ▸ List.prefix_rfl : V.stx s.served.poller <+: V.stx p)
    show s.processing.toInt
        + BoundedState.answered V { s.setSender i .pushed with served.poller := p }
      ≤ (((s.setSender i .pushed).permits + requests (accepted p) : ℕ) : ℤ)
    rw [hans, hacc, requests_append, show requests [.request mid msg req] = 1 from rfl]
    show s.processing.toInt + s.answered V ≤ _
    omega
  | lose => cases hl
  | mark hi =>
    have := h.move (y := .idle) hi (by simp)
    exact ⟨this.even, this.low⟩
  | @serve l served _ hserved =>
    cases l with
    | run l =>
      obtain ⟨p, hp, rfl⟩ := Option.map_eq_some_iff.1 hserved
      obtain ⟨hacc, hstx⟩ := hP.run _ _ _ hp
      refine ⟨?_, h.low⟩
      rw [answered_poller hb.heard hstx, hacc]
      exact h.even
    | turn =>
      simp only [ServedState.step] at hserved
      split_ifs at hserved
      obtain ⟨ev, hev, rfl⟩ := Option.map_eq_some_iff.1 hserved
      exact h.turn hP hb hev rfl _ _
    | _ => exact absurd hl id

end Even

/-- A poller that messages alone are pushed to: it keeps taking them, and once it has nothing to do,
what it has accepted and not answered is its partial batch. -/
structure Settles (P : Lts σ (PollerLabel M ℓ)) (V : PollerView σ R E)
    (core : σ → BatchCore M R E) (batchSize : ℕ) (Inv : σ → Prop) : Prop where
  start : Inv P.start
  step : ∀ p l p', Inv p → (∀ a, l ≠ .push (.action a)) → P.step p l = some p' → Inv p'
  takes : ∀ p mid msg req, Inv p →
    ∃ p', P.step p (.push (.request mid msg req)) = some p' ∧ (core p').rx ≠ []
  settled : ∀ p, Inv p → (core p).rx = [] → (core p).Done → (core p).bufferMid ≠ [] →
    (core p).bufferMid.length < batchSize →
    responses (V.stx p) + (core p).bufferMid.length = requests (core p).accepted

/-- A poller that, with nothing else to do, puts the messages it takes in its buffer. -/
structure Fills [Inhabited M] (P : Lts σ (PollerLabel M ℓ)) (V : PollerView σ R E)
    (core : σ → BatchCore M R E) (batchSize : ℕ) (Idle : ℕ → σ → Prop) : Prop where
  start : Idle 0 P.start
  put : ∀ k p, Idle k p → k + 1 < batchSize →
    ∃ p₁ l p₂, P.step p (.push (.request 0 default false)) = some p₁
      ∧ P.step p₁ (.run l) = some p₂ ∧ Idle (k + 1) p₂
  run : ∀ k p l p', Idle k p → P.step p (.run l) = some p' → Idle k p'
  core : ∀ k p, Idle k p → (core p).rx = [] ∧ (core p).tasks = []
    ∧ (core p).bufferMid.length = k ∧ V.stx p = []

section Pressed

variable {limit : UInt64} {P : Lts σ (PollerLabel M ℓ)} {V : PollerView σ R E}
  {core : σ → BatchCore M R E} {batchSize : ℕ} {load : σ → ℕ} {Inv Sent : σ → Prop}
  {s s' : PressedState σ R E B}

structure PressedInv (limit : UInt64) (V : PollerView σ R E) (core : σ → BatchCore M R E)
    (Inv Sent : σ → Prop) (s : PressedState σ R E B) : Prop where
  bounded : BoundedInv limit V (fun p => (core p).accepted) Inv s.bounded
  even : Even limit V (fun p => (core p).accepted) s.bounded
  poller : Sent s.bounded.served.poller
  known : ∀ i, i ∈ s.refused ∨ i ∈ s.response.waiters → i < s.bounded.senders.length

variable [StdSyncSendError E] {intoBoxed : R → B}

theorem waiters_ringResponse (n : Notify ℕ) (wake : Wake) :
    ∀ i ∈ (wake.ringResponse n).waiters, i ∈ n.waiters := by
  obtain ⟨permit, waiters⟩ := n
  cases wake with
  | responseOne =>
    rcases waiters with _ | ⟨w, ws⟩ <;> simp [Wake.ringResponse, Notify.notifyOne]
    exact fun _ => .inr
  | response => simp [Wake.ringResponse, Notify.notifyWaiters]
  | _ => exact fun _ => id

theorem waiters_foldl_ringResponse (wakes : List Wake) (n : Notify ℕ) :
    ∀ i ∈ (wakes.foldl Wake.ringResponse n).waiters, i ∈ n.waiters := by
  induction wakes generalizing n with
  | nil => exact fun _ => id
  | cons wake wakes ih => exact fun i hi => waiters_ringResponse n wake i (ih _ i hi)

theorem length_senders {b b' : BoundedState σ R E B} {l : BoundedLabel M ℓ}
    (hs : b.step intoBoxed P V l = some b') : b.senders.length ≤ b'.senders.length := by
  cases BoundedState.move hs with
  | spawn => simp
  | serve => exact Nat.le_refl _
  | _ => simp [BoundedState.setSender, BoundedState.setProcessing]

theorem lift_eq_some {l : BoundedLabel M ℓ} (hs : s.lift intoBoxed P V l = some s') :
    ∃ b, s.bounded.step intoBoxed P V l = some b ∧ s' = { s with bounded := b } := by
  obtain ⟨b, hb, rfl⟩ := Option.map_eq_some_iff.1 hs
  exact ⟨b, hb, rfl⟩

/-- A step is one of the receiver under tasks that only send, or the poll of a sender that was
refused. -/
theorem pressed_cases {l : PressedLabel M ℓ} (hs : s.step intoBoxed P V l = some s') :
    (∃ l', l'.Sends ∧ s.bounded.step intoBoxed P V l' = some s'.bounded
        ∧ (∀ i ∈ s'.response.waiters, i ∈ s.response.waiters)
        ∧ ∀ i ∈ s'.refused, i ∈ s.refused ∨ i < s'.bounded.senders.length)
      ∨ ∃ i ∈ s.refused, s' =
        { s with refused := s.refused.erase i, response := (s.response.notified i).1 } := by
  have hlift : ∀ l', l'.Sends → s.lift intoBoxed P V l' = some s' →
      ∃ l', l'.Sends ∧ s.bounded.step intoBoxed P V l' = some s'.bounded
        ∧ (∀ i ∈ s'.response.waiters, i ∈ s.response.waiters)
        ∧ ∀ i ∈ s'.refused, i ∈ s.refused ∨ i < s'.bounded.senders.length := by
    intro l' hl' hs
    obtain ⟨b, hb, rfl⟩ := lift_eq_some hs
    exact ⟨l', hl', hb, fun _ => id, fun _ => .inl⟩
  cases l with
  | spawn => exact .inl (hlift .spawn trivial hs)
  | load i count =>
    simp only [PressedState.step] at hs
    split_ifs at hs
    exact .inl (hlift (.load i count) trivial hs)
  | compare i =>
    obtain ⟨s₁, hs₁, rfl⟩ := Option.map_eq_some_iff.1 hs
    obtain ⟨b, hb, rfl⟩ := lift_eq_some hs₁
    refine .inl ⟨.compare i, trivial, ?_⟩
    split_ifs with hidle
    · refine ⟨hb, fun _ => id, fun j hj => ?_⟩
      rcases List.mem_cons.1 hj with rfl | hj
      · exact .inr (List.getElem?_eq_some_iff.1 hidle).1
      · exact .inl hj
    · exact ⟨hb, fun _ => id, fun _ => .inl⟩
  | poll i =>
    simp only [PressedState.step] at hs
    split_ifs at hs with hi
    cases hs
    exact .inr ⟨i, hi, rfl⟩
  | compareExchange i => exact .inl (hlift (.compareExchange i) trivial hs)
  | push i mid msg req => exact .inl (hlift (.push i mid msg req true) rfl hs)
  | mark i => exact .inl (hlift (.mark i) trivial hs)
  | run l => exact .inl (hlift (.serve (.run l)) trivial hs)
  | turn =>
    obtain ⟨s₁, hs₁, rfl⟩ := Option.map_eq_some_iff.1 hs
    obtain ⟨b, hb, rfl⟩ := lift_eq_some hs₁
    exact .inl ⟨.serve .turn, trivial, hb, waiters_foldl_ringResponse _ _, fun _ => .inl⟩

/-- The poller takes a step of its own or a message, or stays as it is. -/
theorem poller_cases {b b' : BoundedState σ R E B} {l : BoundedLabel M ℓ} (hl : l.Sends)
    (hs : b.step intoBoxed P V l = some b') : b'.served.poller = b.served.poller
      ∨ ∃ l', (∀ a, l' ≠ .push (.action a))
        ∧ P.step b.served.poller l' = some b'.served.poller := by
  cases BoundedState.move hs with
  | push p _ hp => exact .inr ⟨_, by simp, hp⟩
  | serve served _ hserved =>
    rcases serve_cases hserved with ⟨item, rfl, -, -⟩ | ⟨m, rfl, hp, -⟩ | ⟨ev, rfl, -, hp, -⟩
      | ⟨-, -, hp, -⟩
    · exact absurd hl id
    · exact .inr ⟨_, by simp, hp⟩
    · exact .inl hp
    · exact .inl hp
  | _ => exact .inl rfl

theorem pressedInv_step (hP : Counted P V (fun p => (core p).accepted) load Inv)
    (hS : Settles P V core batchSize Sent) (h : PressedInv limit V core Inv Sent s)
    {l : PressedLabel M ℓ} (hs : (pressedReceiver intoBoxed limit P V).step s l = some s') :
    PressedInv limit V core Inv Sent s' := by
  obtain ⟨l', hl', hb, hwaiters, hrefused⟩ | ⟨i, hi, rfl⟩ := pressed_cases hs
  · refine ⟨boundedInv_step hP h.bounded hb, even_step h.even hP h.bounded hl' hb, ?_,
      fun i hi => ?_⟩
    · obtain hp | ⟨pl, hpl, hp⟩ := poller_cases hl' hb
      · exact hp ▸ h.poller
      · exact hS.step _ pl _ h.poller hpl hp
    · have hlen := length_senders hb
      rcases hi with hi | hi
      · rcases hrefused i hi with hi | hi
        · exact Nat.lt_of_lt_of_le (h.known i (.inl hi)) hlen
        · exact hi
      · exact Nat.lt_of_lt_of_le (h.known i (.inr (hwaiters i hi))) hlen
  · refine ⟨h.bounded, h.even, h.poller, fun j hj => h.known j ?_⟩
    rcases hj with hj | hj
    · exact .inl (List.mem_of_mem_erase hj)
    · unfold Notify.notified at hj
      split_ifs at hj
      · exact .inr hj
      · rcases List.mem_append.1 hj with hj | hj
        · exact .inr hj
        · exact .inl (List.mem_singleton.1 hj ▸ hi)

theorem pressedInv_of_reachable (hP : Counted P V (fun p => (core p).accepted) load Inv)
    (hS : Settles P V core batchSize Sent)
    (h : (pressedReceiver intoBoxed limit P V).Reachable s) :
    PressedInv limit V core Inv Sent s := by
  refine Lts.invariant (J := PressedInv limit V core Inv Sent) ?_
    (fun _ _ _ h hs => pressedInv_step hP hS h hs) h
  have hfresh : requests (core P.start).accepted = 0 := by rw [hP.fresh]; rfl
  refine ⟨⟨hP.start, rfl, Int.le_refl 0, Int.natCast_nonneg _, Nat.zero_le _, ?_,
    fun _ hn => absurd hn List.not_mem_nil⟩, ⟨?_, .inl rfl⟩, hS.start,
    fun _ hi => hi.elim (absurd · List.not_mem_nil) (absurd · List.not_mem_nil)⟩
  · show ((0 + requests (core P.start).accepted : ℕ) : ℤ) ≤ 0 + _
    omega
  · show (0 : ℤ) + (responses ((V.stx P.start).take 0) : ℕ) ≤ _
    simp only [List.take_zero, responses, List.filterMap_nil, List.length_nil]
    exact Int.natCast_nonneg _

omit [StdSyncSendError E] in
/-- A wedged receiver has used up what is in its buffer and what the senders hold. -/
theorem Wedged.processing_eq (hw : Wedged V core batchSize s)
    (hS : Settles P V core batchSize Sent) (h : PressedInv limit V core Inv Sent s) :
    s.bounded.processing.toInt
      = s.bounded.permits + (core s.bounded.served.poller).bufferMid.length := by
  have hdone : (core s.bounded.served.poller).Done := by
    intro t ht
    have hgone := hw.idle t ht
    unfold BatchTask.gone at hgone
    split at hgone
    · assumption
    · simp at hgone
  have hsettled := hS.settled _ h.poller hw.queue hdone hw.buffered hw.notFull
  have hans : s.bounded.answered V = responses (V.stx s.bounded.served.poller) := by
    rw [BoundedState.answered, hw.heard, List.take_length]
  have hcovers := h.bounded.covers
  have heven := h.even.even
  rw [hans] at hcovers heven
  omega

theorem step_load {i : ℕ} (hi : s.bounded.senders[i]? = some .idle)
    (hfree : ¬ (i ∈ s.refused ∨ i ∈ s.response.waiters)) (count : Int64) :
    (pressedReceiver intoBoxed limit P V).step s (.load i count)
      = some { s with bounded := s.bounded.setSender i (.loaded count) } := by
  simp [pressedReceiver, PressedState.step, PressedState.lift, BoundedState.step_load hi, hfree]

theorem step_passed {i : ℕ} {count : Int64} (hi : s.bounded.senders[i]? = some (.loaded count))
    (hlt : count < s.bounded.served.wrapper.context.limit.toInt64) :
    (pressedReceiver intoBoxed limit P V).step s (.compare i)
      = some { s with bounded := s.bounded.setSender i (.passed count) } := by
  have hlen := (List.getElem?_eq_some_iff.1 hi).1
  simp [pressedReceiver, PressedState.step, PressedState.lift, BoundedState.step_compare hi, hlt,
    BoundedState.getElem?_setSender hlen]

theorem step_refused {i : ℕ} {count : Int64} (hi : s.bounded.senders[i]? = some (.loaded count))
    (hle : ¬ count < s.bounded.served.wrapper.context.limit.toInt64) :
    (pressedReceiver intoBoxed limit P V).step s (.compare i)
      = some { s with
        bounded := s.bounded.setSender i .idle
        refused := i :: s.refused } := by
  have hlen := (List.getElem?_eq_some_iff.1 hi).1
  simp [pressedReceiver, PressedState.step, PressedState.lift, BoundedState.step_compare hi, hle,
    BoundedState.getElem?_setSender hlen]

theorem step_compareExchange {i : ℕ}
    (hi : s.bounded.senders[i]? = some (.passed s.bounded.processing)) :
    (pressedReceiver intoBoxed limit P V).step s (.compareExchange i)
      = some { s with
        bounded := (s.bounded.setProcessing (s.bounded.processing + 1)).setSender i .holding } := by
  simp [pressedReceiver, PressedState.step, PressedState.lift, BoundedState.step_compareExchange hi]

/-- A sender that is free takes a slot. -/
theorem run_take {i : ℕ} (hi : s.bounded.senders[i]? = some .idle)
    (hfree : ¬ (i ∈ s.refused ∨ i ∈ s.response.waiters))
    (hlt : s.bounded.processing < s.bounded.served.wrapper.context.limit.toInt64) :
    (pressedReceiver intoBoxed limit P V).runFrom s
        [.load i s.bounded.processing, .compare i, .compareExchange i]
      = some { s with
        bounded := (s.bounded.setProcessing (s.bounded.processing + 1)).setSender i .holding } := by
  have hlen := (List.getElem?_eq_some_iff.1 hi).1
  have hcompare : (pressedReceiver intoBoxed limit P V).step
      { s with bounded := s.bounded.setSender i (.loaded s.bounded.processing) } (.compare i)
      = some { s with bounded := s.bounded.setSender i (.passed s.bounded.processing) } := by
    refine (step_passed (s := { s with bounded := s.bounded.setSender i _ })
      (BoundedState.getElem?_setSender hlen _) hlt).trans ?_
    simp
  have hexchange : (pressedReceiver intoBoxed limit P V).step
      { s with bounded := s.bounded.setSender i (.passed s.bounded.processing) }
        (.compareExchange i)
      = some { s with
        bounded := (s.bounded.setProcessing (s.bounded.processing + 1)).setSender i .holding } := by
    refine (step_compareExchange (BoundedState.getElem?_setSender hlen _)).trans ?_
    simp [BoundedState.setSender, BoundedState.setProcessing, BoundedState.processing]
  rw [Lts.runFrom_cons (step_load hi hfree _), Lts.runFrom_cons hcompare,
    Lts.runFrom_cons hexchange]
  rfl

variable [Inhabited M]

/-- A sender that holds a permit pushes its message. -/
theorem run_push {i : ℕ} (hi : s.bounded.senders[i]? = some .holding) {p : σ}
    (hp : P.step s.bounded.served.poller (.push (.request 0 default false)) = some p) :
    (pressedReceiver intoBoxed limit P V).runFrom s [.push i 0 default false]
      = some { s with bounded := { s.bounded.setSender i .pushed with served.poller := p } } := by
  simp [Lts.runFrom, pressedReceiver, PressedState.step, PressedState.lift, BoundedState.step, hi,
    ServedState.step, hp, BoundedState.setSender]

/-- A sender that holds a permit can push its message. -/
theorem not_trapped_of_holding (hS : Settles P V core batchSize Sent)
    (hp : Sent s.bounded.served.poller) {i : ℕ} (hi : s.bounded.senders[i]? = some .holding) :
    ¬ (pressedReceiver intoBoxed limit P V).Trapped (Wedged V core batchSize) s := by
  intro ht
  obtain ⟨p, hp, hrx⟩ := hS.takes _ 0 default false hp
  exact hrx (ht.run (run_push hi hp)).holds.queue

/-- Another sender can take a slot that is free. -/
theorem not_trapped_of_room (hS : Settles P V core batchSize Sent)
    (h : PressedInv limit V core Inv Sent s) (hlt : s.bounded.processing < limit.toInt64) :
    ¬ (pressedReceiver intoBoxed limit P V).Trapped (Wedged V core batchSize) s := by
  intro ht
  have hspawn : (pressedReceiver intoBoxed limit P V).step s .spawn
      = some { s with bounded := { s.bounded with senders := s.bounded.senders ++ [.idle] } } := rfl
  have hfree : ¬ (s.bounded.senders.length ∈ s.refused
      ∨ s.bounded.senders.length ∈ s.response.waiters) :=
    fun hn => Nat.lt_irrefl _ (h.known _ hn)
  have hidle : (s.bounded.senders ++ [Sender.idle])[s.bounded.senders.length]? = some .idle := by
    simp
  rw [← h.bounded.context] at hlt
  have htake := (ht.step hspawn).run (run_take hidle hfree hlt)
  refine absurd htake (not_trapped_of_holding hS (i := s.bounded.senders.length) h.poller ?_)
  simp [BoundedState.setSender, BoundedState.setProcessing]

/-- Where a batch fits the limit, a wedged receiver has a slot to give, or a sender has one. -/
theorem not_trapped (hS : Settles P V core batchSize Sent)
    (h : PressedInv limit V core Inv Sent s)
    (hfit : batchSize ≤ limit.toNat ∨ limit.toInt64.toInt ≤ 0) :
    ¬ (pressedReceiver intoBoxed limit P V).Trapped (Wedged V core batchSize) s := by
  intro ht
  have hproc := ht.holds.processing_eq hS h
  have hbuffered := List.length_pos_iff.2 ht.holds.buffered
  have hnotFull := ht.holds.notFull
  have hlow := h.even.low
  by_cases hpermits : s.bounded.permits = 0
  · refine not_trapped_of_room hS h ?_ ht
    rw [Int64.lt_iff_toInt_lt]
    by_cases hpos : 0 < limit.toInt64.toInt
    · have hlimit := toInt64_of_pos hpos
      omega
    · omega
  · obtain ⟨x, hx, hholding⟩ := List.countP_pos_iff.1 (Nat.pos_of_ne_zero hpermits)
    obtain ⟨i, hi⟩ := List.mem_iff_getElem?.1 hx
    refine not_trapped_of_holding hS h.poller (i := i) ?_ ht
    simpa [hi] using hholding

/-- One sender has sent `k` messages, which are in the buffer. -/
structure Filled (limit : UInt64) (Idle : ℕ → σ → Prop) (k : ℕ) (s : PressedState σ R E B) :
    Prop where
  poller : Idle k s.bounded.served.poller
  context : s.bounded.served.wrapper.context.limit = limit
  processing : s.bounded.processing.toInt = k
  heard : s.bounded.served.heard = 0
  senders : s.bounded.senders = [.idle]
  response : s.response = .new
  refused : s.refused = []

theorem exists_filled {Idle : ℕ → σ → Prop} (hF : Fills P V core batchSize Idle)
    (hpos : 0 < limit.toInt64.toInt) (hlarge : limit.toNat < batchSize) : ∀ k ≤ limit.toNat,
    ∃ s, (pressedReceiver intoBoxed limit P V).Reachable s ∧ Filled limit Idle k s := by
  intro k
  induction k with
  | zero =>
    intro _
    have hspawn : (pressedReceiver intoBoxed limit P V).run [.spawn] = some _ := rfl
    exact ⟨_, Lts.reachable_of_run hspawn, hF.start, rfl, rfl, rfl, rfl, rfl, rfl⟩
  | succ k ih =>
    intro hk
    obtain ⟨s, hr, hs⟩ := ih (by omega)
    obtain ⟨p₁, l, p₂, hpush, hrun, hidle⟩ := hF.put k _ hs.poller (by omega)
    have hlimit := toInt64_of_pos hpos
    have hlt : s.bounded.processing < s.bounded.served.wrapper.context.limit.toInt64 := by
      rw [hs.context, Int64.lt_iff_toInt_lt, hs.processing]
      omega
    have hadd := toInt_add_one hlt
    have htaken : (pressedReceiver intoBoxed limit P V).Reachable { s with
        bounded := (s.bounded.setProcessing (s.bounded.processing + 1)).setSender 0 .holding } := by
      refine Lts.reachable_of_runFrom hr (run_take ?_ ?_ hlt)
      · simp [hs.senders]
      · simp [hs.refused, hs.response, Notify.new]
    have hpushed := Lts.reachable_of_runFrom htaken (run_push (i := 0)
      (by simp [BoundedState.setSender, BoundedState.setProcessing, hs.senders]) hpush)
    have hmarked := hpushed.step (l := .mark 0) (by
      simp [pressedReceiver, PressedState.step, PressedState.lift, BoundedState.step,
        BoundedState.setSender, BoundedState.setProcessing, hs.senders]
      rfl)
    have hran := hmarked.step (l := .run l) (by
      simp [pressedReceiver, PressedState.step, PressedState.lift, BoundedState.step,
        ServedLabel.sends, ServedState.step, hrun]
      rfl)
    refine ⟨_, hran, hidle, hs.context, ?_, hs.heard, rfl, hs.response, hs.refused⟩
    show (s.bounded.processing + 1).toInt = _
    rw [hadd, hs.processing]
    rfl

/-- The buffer holds as many messages as the limit allows and fewer than a batch, nobody holds a
permit, and a sender is parked. -/
structure Frozen (limit : UInt64) (V : PollerView σ R E) (core : σ → BatchCore M R E)
    (Idle : ℕ → σ → Prop) (s : PressedState σ R E B) : Prop where
  poller : Idle limit.toNat s.bounded.served.poller
  context : s.bounded.served.wrapper.context.limit = limit
  processing : s.bounded.processing = limit.toInt64
  heard : s.bounded.served.heard = 0
  senders : ∀ x ∈ s.bounded.senders, x ≠ .holding ∧ x ≠ .pushed
    ∧ ∀ n, x = .passed n → n < limit.toInt64
  parked : s.response.waiters ≠ []

omit [StdSyncSendError E] [Inhabited M] in
theorem Frozen.setSender {Idle : ℕ → σ → Prop} (h : Frozen limit V core Idle s) (i : ℕ)
    {x : Sender} (hx : x ≠ .holding ∧ x ≠ .pushed ∧ ∀ n, x = .passed n → n < limit.toInt64)
    (refused : List ℕ) :
    Frozen limit V core Idle { s with bounded := s.bounded.setSender i x, refused := refused } := by
  refine ⟨h.poller, h.context, h.processing, h.heard, fun y hy => ?_, h.parked⟩
  rcases List.mem_or_eq_of_mem_set hy with hy | rfl
  · exact h.senders y hy
  · exact hx

theorem frozen_step {Idle : ℕ → σ → Prop} (hF : Fills P V core batchSize Idle)
    (h : Frozen limit V core Idle s) {l : PressedLabel M ℓ}
    (hs : (pressedReceiver intoBoxed limit P V).step s l = some s') :
    Frozen limit V core Idle s' := by
  have hstx := (hF.core _ _ h.poller).2.2.2
  cases l with
  | spawn =>
    cases hs
    refine ⟨h.poller, h.context, h.processing, h.heard, fun x hx => ?_, h.parked⟩
    rcases List.mem_append.1 hx with hx | hx
    · exact h.senders x hx
    · simp [List.mem_singleton.1 hx]
  | load i count =>
    simp only [pressedReceiver, PressedState.step] at hs
    split_ifs at hs
    obtain ⟨b, hb, rfl⟩ := lift_eq_some hs
    cases BoundedState.move hb
    exact h.setSender i (by simp) _
  | compare i =>
    obtain ⟨s₁, hs₁, rfl⟩ := Option.map_eq_some_iff.1 hs
    obtain ⟨b, hb, rfl⟩ := lift_eq_some hs₁
    cases BoundedState.move hb with
    | @pass _ count hi hlt =>
      have := h.setSender i (x := .passed count) (by simpa [h.context] using hlt)
      split_ifs <;> exact this _
    | refuse hi =>
      have := h.setSender i (x := .idle) (by simp)
      split_ifs <;> exact this _
  | poll i =>
    simp only [pressedReceiver, PressedState.step] at hs
    split_ifs at hs
    cases hs
    refine ⟨h.poller, h.context, h.processing, h.heard, h.senders, ?_⟩
    unfold Notify.notified
    split_ifs
    · exact h.parked
    · simp
  | compareExchange i =>
    obtain ⟨b, hb, rfl⟩ := lift_eq_some hs
    cases BoundedState.move hb with
    | exchange hi =>
      have hlt := (h.senders _ (List.mem_of_getElem? hi)).2.2 _ rfl
      exact absurd (h.processing ▸ hlt) Int64.lt_irrefl
    | retry hi => exact h.setSender i (by simp) _
  | push i mid msg req =>
    obtain ⟨b, hb, rfl⟩ := lift_eq_some hs
    cases BoundedState.move hb with
    | push p hi => exact absurd rfl (h.senders _ (List.mem_of_getElem? hi)).1
  | mark i =>
    obtain ⟨b, hb, rfl⟩ := lift_eq_some hs
    cases BoundedState.move hb with
    | mark hi => exact absurd rfl (h.senders _ (List.mem_of_getElem? hi)).2.1
  | run l =>
    obtain ⟨b, hb, rfl⟩ := lift_eq_some hs
    cases BoundedState.move hb with
    | serve served _ hserved =>
      obtain ⟨p, hp, rfl⟩ := Option.map_eq_some_iff.1 hserved
      exact ⟨hF.run _ _ _ _ h.poller hp, h.context, h.processing, h.heard, h.senders, h.parked⟩
  | turn =>
    obtain ⟨s₁, hs₁, rfl⟩ := Option.map_eq_some_iff.1 hs
    obtain ⟨b, hb, rfl⟩ := lift_eq_some hs₁
    simp [BoundedState.step, ServedLabel.sends, ServedState.step, hstx] at hb

theorem trapped_of_frozen {Idle : ℕ → σ → Prop} (hF : Fills P V core batchSize Idle)
    (hpos : 0 < limit.toInt64.toInt) (hlarge : limit.toNat < batchSize)
    (h : Frozen limit V core Idle s) :
    (pressedReceiver intoBoxed limit P V).Trapped (Wedged V core batchSize) s := by
  refine Lts.trapped_of_invariant (J := Frozen limit V core Idle) (fun s h => ?_)
    (fun _ _ _ h hs => frozen_step hF h hs) h
  obtain ⟨hrx, htasks, hbuffer, hstx⟩ := hF.core _ _ h.poller
  have hlimit := toInt64_of_pos hpos
  refine ⟨h.parked, hrx, by simp [htasks], by rw [h.heard, hstx]; rfl, ?_, by omega⟩
  exact List.ne_nil_of_length_pos (by omega)

/-- Senders that fill a limit below the batch size are parked for good. -/
theorem exists_trapped {Idle : ℕ → σ → Prop} (hF : Fills P V core batchSize Idle)
    (hpos : 0 < limit.toInt64.toInt) (hlarge : limit.toNat < batchSize) :
    ¬ NeverDeadlocked intoBoxed limit P V core batchSize := by
  intro hnever
  obtain ⟨s, hr, hs⟩ : ∃ s, (pressedReceiver intoBoxed limit P V).Reachable s
      ∧ Filled limit Idle limit.toNat s := exists_filled hF hpos hlarge _ (Nat.le_refl _)
  have hproc : s.bounded.processing = limit.toInt64 :=
    Int64.toInt_inj.1 (hs.processing.trans (toInt64_of_pos hpos).symm)
  have hloaded := hr.step (step_load (i := 0) (by simp [hs.senders])
    (by simp [hs.refused, hs.response, Notify.new]) s.bounded.processing)
  have hfirst : (s.bounded.setSender 0 (.loaded s.bounded.processing)).senders[0]?
      = some (.loaded s.bounded.processing) := by
    simp [BoundedState.setSender, hs.senders]
  have hrefused := hloaded.step (step_refused hfirst (by
    show ¬ _ < s.bounded.served.wrapper.context.limit.toInt64
    rw [hs.context, hproc]
    exact Int64.lt_irrefl))
  have hparked := hrefused.step (l := .poll 0) (by
    simp [pressedReceiver, PressedState.step]
    rfl)
  refine hnever _ hparked (trapped_of_frozen hF hpos hlarge ⟨hs.poller, hs.context, hproc, hs.heard,
    ?_, ?_⟩)
  · simp [BoundedState.setSender, hs.senders]
  · simp [hs.response, Notify.new, Notify.notified]

/-- With batches larger than the limit a receiver deadlocks, and with others it does not. -/
theorem neverDeadlocked_iff {Idle : ℕ → σ → Prop}
    (hP : Counted P V (fun p => (core p).accepted) load Inv)
    (hS : Settles P V core batchSize Sent) (hF : Fills P V core batchSize Idle) :
    NeverDeadlocked intoBoxed limit P V core batchSize
      ↔ batchSize ≤ limit.toNat ∨ limit.toInt64 ≤ 0 := by
  constructor
  · intro hnever
    by_contra hcond
    rw [not_or, Nat.not_le, Int64.not_le, Int64.lt_iff_toInt_lt] at hcond
    exact exists_trapped hF (by simpa using hcond.2) hcond.1 hnever
  · intro hcond s hr
    refine not_trapped hS (pressedInv_of_reachable hP hS hr) ?_
    simpa [Int64.le_iff_toInt_le] using hcond

end Pressed

theorem Counted.of_withPanics {P : Lts σ (PollerLabel M ℓ)} {V : PollerView σ R E}
    {accepted : σ → List (Request M)} {load : σ → ℕ} {Inv : σ → Prop}
    {panic : σ → Panic → Option σ} (h : Counted (withPanics P panic) V accepted load Inv) :
    Counted P V accepted load Inv where
  start := h.start
  fresh := h.fresh
  silent := h.silent
  step s l s' hi hs := by
    cases l with
    | push item => exact h.step s (.push item) s' hi hs
    | run l => exact h.step s (.run (.inl l)) s' hi hs
  push := h.push
  run s l := h.run s (.inl l)
  load_le := h.load_le
  quiet := h.quiet

/-- A queue of messages stays one while messages are pushed. -/
theorem messages_push {rx : List (Request M)} (h : ∀ item ∈ rx, item.mid?.isSome = true)
    {item : Request M} (hitem : ∀ a, item ≠ .action a) :
    ∀ it ∈ rx ++ [item], it.mid?.isSome = true := by
  intro it hit
  rcases List.mem_append.1 hit with hit | hit
  · exact h it hit
  · obtain rfl := List.mem_singleton.1 hit
    rcases it with a | ⟨mid, msg, req⟩
    · exact absurd rfl (hitem a)
    · rfl

namespace BufferUnorderedBatched

variable {cfg : BufferUnorderedBatchedConfig} {s s' : BufferUnorderedBatched M R E}

/-- The poller under pushes of messages. -/
structure Sent (cfg : BufferUnorderedBatchedConfig) (s : BufferUnorderedBatched M R E) : Prop where
  splits : Splits cfg s
  conserved : s.core.Conserved
  messages : ∀ item ∈ s.core.rx, item.mid?.isSome = true
  opened : s.core.closed = false
  pc : s.pc = .recv ∨ s.pc = .acquire ∧ cfg.batchSize ≤ s.core.bufferMid.length
    ∨ s.pc = .aborted ∧ s.core.bufferMid = []
  dead : ¬ cfg.Starts → s.pc = .aborted

theorem sent_start : Sent cfg (start cfg : BufferUnorderedBatched M R E) := by
  refine ⟨splits_start, .start, List.forall_mem_nil _, rfl, ?_, fun h => if_neg h⟩
  unfold start
  dsimp only
  split_ifs
  · exact .inl rfl
  · exact .inr (.inr ⟨rfl, rfl⟩)

theorem sent_step {l : PollerLabel M (BufferUnorderedBatchedLabel R E)} (h : Sent cfg s)
    (hl : ∀ a, l ≠ .push (.action a)) (hs : s.step cfg l = some s') : Sent cfg s' := by
  have htask : ∀ {c : BatchCore M R E} {permits : ℕ}, BatchCore.TaskStep s.core c →
      Splits cfg { s with core := c, permits := permits } → c.Conserved →
      Sent cfg { s with core := c, permits := permits } := by
    intro c permits hc hsplits hcons
    have hf := hc.frame
    refine ⟨hsplits, hcons, ?_, ?_, ?_, h.dead⟩
    · rw [hf.rx]
      exact h.messages
    · rw [hf.closed]
      exact h.opened
    · rw [hf.bufferMid]
      exact h.pc
  have hsplits := splits_step h.splits hs
  have hcons := conserved_step h.conserved hs
  cases move hs with
  | push item =>
    have hitem : ∀ a, item ≠ .action a := fun a ha => hl a (ha ▸ rfl)
    exact ⟨hsplits, hcons, messages_push h.messages hitem, h.opened, h.pc, h.dead⟩
  | take item rx hpc hrx =>
    have hmessages := h.messages
    rw [hrx, List.forall_mem_cons] at hmessages
    rcases item with a | ⟨mid, msg, req⟩
    · exact absurd hmessages.1 (by simp [Request.mid?])
    · refine ⟨hsplits, hcons, hmessages.2, h.opened, ?_, fun hdead => ?_⟩
      · simp only [body]
        split_ifs with hfull
        · exact .inr (.inl ⟨rfl, hfull⟩)
        · exact .inl rfl
      · exact absurd (h.dead hdead) (by simp [hpc])
  | ends _ _ hclosed => exact absurd hclosed (by simp [h.opened])
  | dispatch hpc =>
    refine ⟨hsplits, hcons, h.messages, h.opened, .inl rfl, fun hdead => ?_⟩
    exact absurd (h.dead hdead) (by simp [hpc])
  | flushDispatch batch hpc => exact absurd h.pc (by simp [hpc])
  | flushed hpc => exact absurd h.pc (by simp [hpc])
  | sync hpc => exact absurd h.pc (by simp [hpc])
  | synced resp hpc => exact absurd h.pc (by simp [hpc])
  | start i c hc => exact htask (.start hc) hsplits hcons
  | finish i resp c hc => exact htask (.finish hc) hsplits hcons
  | send i c hc => exact htask (.send hc) hsplits hcons

theorem settles (cfg : BufferUnorderedBatchedConfig) :
    Settles (bufferUnorderedBatchPoller M R E cfg) view core cfg.batchSize (Sent cfg) where
  start := sent_start
  step _ _ _ h hl hs := sent_step h hl hs
  takes s mid msg req h := by
    refine ⟨{ s with core.rx := s.core.rx ++ [.request mid msg req] }, ?_, by simp⟩
    simp [bufferUnorderedBatchPoller, BufferUnorderedBatched.step, BatchCore.push, h.opened]
  settled s h hrx hdone hbuffered hnotFull := by
    have hsplits := h.splits
    unfold Splits shown at hsplits
    rcases h.pc with hpc | ⟨-, hfull⟩ | ⟨-, hempty⟩
    · rw [hpc] at hsplits
      have hcount := BatchCore.count_of_done hsplits h.conserved hdone
      simpa [BatchCore.accepted, hrx, view] using hcount
    · omega
    · exact absurd hempty hbuffered

/-- Nothing to do, with `k` messages in the buffer. -/
structure Idle (k : ℕ) (s : BufferUnorderedBatched M R E) : Prop where
  pc : s.pc = .recv
  rx : s.core.rx = []
  tasks : s.core.tasks = []
  opened : s.core.closed = false
  buffer : s.core.bufferMid.length = k
  stx : s.core.stx = []

theorem fills [Inhabited M] (hcfg : cfg.Starts) :
    Fills (bufferUnorderedBatchPoller M R E cfg) view core cfg.batchSize Idle where
  start := ⟨if_pos hcfg, rfl, rfl, rfl, rfl, rfl⟩
  put k s h hk := by
    refine ⟨{ s with core.rx := [.request 0 default false] }, .recv,
      body cfg { s with core.rx := [], core.taken := s.core.taken ++ [.request 0 default false] }
        (.request 0 default false), ?_, ?_, ?_⟩
    · simp [bufferUnorderedBatchPoller, BufferUnorderedBatched.step, BatchCore.push, h.opened, h.rx]
    · simp [bufferUnorderedBatchPoller, BufferUnorderedBatched.step, run, h.pc, BatchCore.recv]
    · have hlen := h.buffer
      refine ⟨?_, rfl, h.tasks, h.opened, ?_, h.stx⟩
      · simp [body, BatchCore.bufferPush, hlen, Nat.not_le.2 hk]
      · simp [body, BatchCore.bufferPush, hlen]
  run k s l s' h hs := by
    have hs : s.step cfg (.run l) = some s' := hs
    cases move hs with
    | take item rx _ hrx => exact absurd hrx (by simp [h.rx])
    | ends _ _ hclosed => exact absurd hclosed (by simp [h.opened])
    | dispatch hpc | flushed hpc | sync hpc => exact absurd hpc (by simp [h.pc])
    | flushDispatch batch hpc => exact absurd hpc (by simp [h.pc])
    | synced resp hpc => exact absurd hpc (by simp [h.pc])
    | start i c hc => exact absurd (.start hc) (BatchCore.of_tasks_nil h.tasks)
    | finish i resp c hc => exact absurd (.finish hc) (BatchCore.of_tasks_nil h.tasks)
    | send i c hc => exact absurd (.send hc) (BatchCore.of_tasks_nil h.tasks)
  core k s h := ⟨h.rx, h.tasks, h.buffer, h.stx⟩

end BufferUnorderedBatched

namespace SynchronizedBatched

variable {cfg : SynchronizedBatchedConfig} {s s' : SynchronizedBatched M R E}

/-- The poller under pushes of messages. -/
structure Sent (cfg : SynchronizedBatchedConfig) (s : SynchronizedBatched M R E) : Prop where
  splits : Splits cfg s
  conserved : s.core.Conserved
  messages : ∀ item ∈ s.core.rx, item.mid?.isSome = true
  opened : s.core.closed = false
  pc : s.pc = .recv ∨ s.pc = .aborted ∧ s.core.bufferMid = []
  dead : ¬ cfg.Starts → s.pc = .aborted

theorem sent_start : Sent cfg (start cfg : SynchronizedBatched M R E) := by
  refine ⟨splits_start, .start, List.forall_mem_nil _, rfl, ?_, fun h => if_neg h⟩
  unfold start
  dsimp only
  split_ifs
  · exact .inl rfl
  · exact .inr ⟨rfl, rfl⟩

theorem sent_step {l : PollerLabel M (SynchronizedBatchedLabel R E)} (h : Sent cfg s)
    (hl : ∀ a, l ≠ .push (.action a)) (hs : s.step cfg l = some s') : Sent cfg s' := by
  have htask : ∀ {c : BatchCore M R E} {lock : List Holder}, BatchCore.TaskStep s.core c →
      Splits cfg { s with core := c, lock := lock } → c.Conserved →
      Sent cfg { s with core := c, lock := lock } := by
    intro c lock hc hsplits hcons
    have hf := hc.frame
    refine ⟨hsplits, hcons, ?_, ?_, ?_, h.dead⟩
    · rw [hf.rx]
      exact h.messages
    · rw [hf.closed]
      exact h.opened
    · rw [hf.bufferMid]
      exact h.pc
  have hsplits := splits_step h.splits hs
  have hcons := conserved_step h.conserved hs
  cases move hs with
  | push item =>
    have hitem : ∀ a, item ≠ .action a := fun a ha => hl a (ha ▸ rfl)
    exact ⟨hsplits, hcons, messages_push h.messages hitem, h.opened, h.pc, h.dead⟩
  | take item rx hpc hrx =>
    have hmessages := h.messages
    rw [hrx, List.forall_mem_cons] at hmessages
    rcases item with a | ⟨mid, msg, req⟩
    · exact absurd hmessages.1 (by simp [Request.mid?])
    · refine ⟨hsplits, hcons, ?_, ?_, .inl hpc, h.dead⟩ <;> simp only [body] <;> split_ifs
      · exact hmessages.2
      · exact hmessages.2
      · exact h.opened
      · exact h.opened
  | ends _ _ hclosed => exact absurd hclosed (by simp [h.opened])
  | start i c _ hc => exact htask (.start hc) hsplits hcons
  | finish i resp c _ hc => exact htask (.finish hc) hsplits hcons
  | send i c hc => exact htask (.send hc) hsplits hcons
  | askSync hpc | startSync hpc => exact absurd h.pc (by simp [hpc])
  | synced resp hpc => exact absurd h.pc (by simp [hpc])
  | ask | askOther | otherDone => exact ⟨hsplits, hcons, h.messages, h.opened, h.pc, h.dead⟩

theorem settles (cfg : SynchronizedBatchedConfig) :
    Settles (batchSynchronizedPoller M R E cfg) view core cfg.batchSize (Sent cfg) where
  start := sent_start
  step _ _ _ h hl hs := sent_step h hl hs
  takes s mid msg req h := by
    refine ⟨{ s with core.rx := s.core.rx ++ [.request mid msg req] }, ?_, by simp⟩
    simp [batchSynchronizedPoller, SynchronizedBatched.step, BatchCore.push, h.opened]
  settled s h hrx hdone _ _ := by
    have hcount := BatchCore.count_of_done h.splits h.conserved hdone
    simpa [BatchCore.accepted, hrx, view] using hcount

/-- Nothing to do, with `k` messages in the buffer. -/
structure Idle (k : ℕ) (s : SynchronizedBatched M R E) : Prop where
  pc : s.pc = .recv
  rx : s.core.rx = []
  tasks : s.core.tasks = []
  opened : s.core.closed = false
  buffer : s.core.bufferMid.length = k
  stx : s.core.stx = []

theorem fills [Inhabited M] (hcfg : cfg.Starts) :
    Fills (batchSynchronizedPoller M R E cfg) view core cfg.batchSize Idle where
  start := ⟨if_pos hcfg, rfl, rfl, rfl, rfl, rfl⟩
  put k s h hk := by
    refine ⟨{ s with core.rx := [.request 0 default false] }, .recv,
      body cfg { s with core.rx := [], core.taken := s.core.taken ++ [.request 0 default false] }
        (.request 0 default false), ?_, ?_, ?_⟩
    · simp [batchSynchronizedPoller, SynchronizedBatched.step, BatchCore.push, h.opened, h.rx]
    · simp [batchSynchronizedPoller, SynchronizedBatched.step, run, h.pc, BatchCore.recv]
    · have hlen := h.buffer
      unfold body
      dsimp only
      split_ifs with hfull
      · simp [BatchCore.bufferPush, hlen] at hfull
        omega
      · exact ⟨h.pc, rfl, h.tasks, h.opened, by simp [BatchCore.bufferPush, hlen], h.stx⟩
  run k s l s' h hs := by
    have hs : s.step cfg (.run l) = some s' := hs
    cases move hs with
    | take item rx _ hrx => exact absurd hrx (by simp [h.rx])
    | ends _ _ hclosed => exact absurd hclosed (by simp [h.opened])
    | start i c _ hc => exact absurd (.start hc) (BatchCore.of_tasks_nil h.tasks)
    | finish i resp c _ hc => exact absurd (.finish hc) (BatchCore.of_tasks_nil h.tasks)
    | send i c hc => exact absurd (.send hc) (BatchCore.of_tasks_nil h.tasks)
    | askSync hpc | startSync hpc => exact absurd hpc (by simp [h.pc])
    | synced resp hpc => exact absurd hpc (by simp [h.pc])
    | ask | askOther | otherDone => exact ⟨h.pc, h.rx, h.tasks, h.opened, h.buffer, h.stx⟩
  core k s h := ⟨h.rx, h.tasks, h.buffer, h.stx⟩

end SynchronizedBatched

/-- Under tasks that only send, a batched receiver is never wedged for good exactly where a batch
fits the limit. A limit that is not positive as an `i64` lets no message in, and a poller that does
not get to its loop buffers none. -/
theorem batched_backpressure_iff {M R E B : Type} [Inhabited M] [StdSyncSendError E]
    (intoBoxed : R → B) (limit : UInt64) :
    (∀ cfg : BufferUnorderedBatchedConfig,
      NeverDeadlocked intoBoxed limit (bufferUnorderedBatchPoller M R E cfg)
          BufferUnorderedBatched.view BufferUnorderedBatched.core cfg.batchSize
        ↔ cfg.batchSize ≤ limit.toNat ∨ limit.toInt64 ≤ 0 ∨ ¬ cfg.Starts)
    ∧ ∀ cfg : SynchronizedBatchedConfig,
      NeverDeadlocked intoBoxed limit (batchSynchronizedPoller M R E cfg)
          SynchronizedBatched.view SynchronizedBatched.core cfg.batchSize
        ↔ cfg.batchSize ≤ limit.toNat ∨ limit.toInt64 ≤ 0 ∨ ¬ cfg.Starts := by
  refine ⟨fun cfg => ?_, fun cfg => ?_⟩
  · have hP := (BufferUnorderedBatched.counted (M := M) (R := R) (E := E) cfg).of_withPanics
    by_cases hcfg : cfg.Starts
    · rw [neverDeadlocked_iff hP (BufferUnorderedBatched.settles cfg)
        (BufferUnorderedBatched.fills hcfg)]
      simp [hcfg]
    · refine iff_of_true (fun s hr ht => ?_) (.inr (.inr hcfg))
      have hsent := (pressedInv_of_reachable hP (BufferUnorderedBatched.settles cfg) hr).poller
      have hpc := hsent.pc
      rw [hsent.dead hcfg] at hpc
      simp only [reduceCtorEq, false_and, false_or, true_and] at hpc
      exact ht.holds.buffered hpc
  · have hP := (SynchronizedBatched.counted (M := M) (R := R) (E := E) cfg).of_withPanics
    by_cases hcfg : cfg.Starts
    · rw [neverDeadlocked_iff hP (SynchronizedBatched.settles cfg)
        (SynchronizedBatched.fills hcfg)]
      simp [hcfg]
    · refine iff_of_true (fun s hr ht => ?_) (.inr (.inr hcfg))
      have hsent := (pressedInv_of_reachable hP (SynchronizedBatched.settles cfg) hr).poller
      have hpc := hsent.pc
      rw [hsent.dead hcfg] at hpc
      simp only [reduceCtorEq, false_or, true_and] at hpc
      exact ht.holds.buffered hpc

/-- A limit of one and batches of two: one message waits in the buffer, and the sender of the next
for the answer to it. -/
theorem one_slot_deadlocks_batch_of_two :
    ¬ NeverDeadlocked (id : Unit → Unit) 1
        (bufferUnorderedBatchPoller Unit Unit GenericError ⟨1, 2, 0⟩)
        BufferUnorderedBatched.view BufferUnorderedBatched.core 2
      ∧ ¬ NeverDeadlocked (id : Unit → Unit) 1
        (batchSynchronizedPoller Unit Unit GenericError ⟨2, 0⟩)
        SynchronizedBatched.view SynchronizedBatched.core 2 :=
  ⟨exists_trapped (BufferUnorderedBatched.fills (by decide)) (by decide) (by decide),
    exists_trapped (SynchronizedBatched.fills (by decide)) (by decide) (by decide)⟩

end MessageBus
