import MessageBus.Lib.Simulation
import MessageBus.Proofs.Returning
import MessageBus.Proofs.Waiters
import MessageBus.Requests

/-!
# Requests come back

The four pollers answer each message they accept at most once (`Replying`), so a receiver around
one of them does what `localReceiver` allows (`Abstracts`), and what that keeps of its waiters holds
of it. A request whose channel is empty has its waiter in the table and its message among those
without a `Response` (`Awaited`): where the receiver stops, the poller has given it up or buffers
it.
-/

namespace MessageBus

open Batching

section Abstract

variable {R E B : Type} [StdSyncSendError E] {intoBoxed : R → B}

/-- A request whose channel is empty has its waiter in the table, and once sent its message has no
`Response` yet. Where a channel has lost its receiver, or the loop has panicked, a caller has
gone. -/
structure Awaited (t : LocalState R E B) : Prop where
  waiting : ∀ r q, t.reqs r = some q → t.chans r = .waiting →
    t.wrapper.waiters.slot q.key = some ⟨q.kind, r⟩
  owed : ∀ r q, t.reqs r = some q → q.stage = .sent → t.chans r = .waiting →
    (requestMid q.key, .request r) ∈ t.pending
  dropped : ∀ r, t.chans r = .dropped → ∃ q, t.reqs r = some q ∧ q.stage = .gone
  aborted : t.loop = .aborted → ∃ r q, t.reqs r = some q ∧ q.stage = .gone

namespace Awaited

variable {t t' : LocalState R E B}

omit [StdSyncSendError E]

theorem start (limit : UInt64) : Awaited (LocalState.start limit : LocalState R E B) :=
  ⟨by rintro _ _ ⟨⟩, by rintro _ _ ⟨⟩, by rintro _ ⟨⟩, by rintro ⟨⟩⟩

/-- A request that starts has an empty channel, and its waiter in a slot that was free. -/
theorem request (h : Awaited t) (hl : LiveInv t) (kind : WaiterKind) {key : Slab.Key}
    (hk : t.wrapper.waiters.slot key = none) :
    Awaited { t with
      wrapper.waiters := ⟨Function.update t.wrapper.waiters.slot key (some ⟨kind, t.reqCount⟩)⟩
      reqs := Function.update t.reqs t.reqCount (some ⟨kind, key, .reserving⟩)
      reqCount := t.reqCount + 1 } := by
  have hreq : ∀ {r q}, t.reqs r = some q →
      Function.update t.reqs t.reqCount (some ⟨kind, key, .reserving⟩) r = some q := by
    intro r q hq
    rw [Function.update_of_ne (Nat.ne_of_lt (hl.lt_reqCount hq))]
    exact hq
  refine ⟨fun r q hq hc => ?_, fun r q hq hst hc => ?_, fun r hc => ?_, fun hloop => ?_⟩
  · simp only [Function.update_apply] at hq ⊢
    split_ifs at hq with hr
    · cases hq
      simp [hr]
    · have hslot := h.waiting r q hq hc
      rw [if_neg]
      · exact hslot
      · rintro rfl
        rw [hk] at hslot
        cases hslot
  · simp only [Function.update_apply] at hq
    split_ifs at hq with hr
    · cases hq
      cases hst
    · exact h.owed r q hq hst hc
  · obtain ⟨q, hq, hst⟩ := h.dropped r hc
    exact ⟨q, hreq hq, hst⟩
  · obtain ⟨r, q, hq, hst⟩ := h.aborted hloop
    exact ⟨r, q, hreq hq, hst⟩

/-- A request pushes its message. -/
theorem sent (h : Awaited t) {r : ℕ} {kind : WaiterKind} {key : Slab.Key}
    (hq : t.reqs r = some ⟨kind, key, .reserving⟩) (c : ReceiverContext) :
    Awaited { t with
      wrapper.context := c
      reqs := Function.update t.reqs r (some ⟨kind, key, .sent⟩)
      pending := t.pending ++ [(requestMid key, .request r)] } := by
  have hgone : ∀ {r' q}, t.reqs r' = some q → q.stage = .gone →
      Function.update t.reqs r (some ⟨kind, key, .sent⟩) r' = some q := by
    intro r' q hq' hst
    rw [Function.update_of_ne]
    · exact hq'
    · rintro rfl
      rw [hq] at hq'
      cases hq'
      cases hst
  refine ⟨fun r' q hq' hc => ?_, fun r' q hq' hst hc => ?_, fun r' hc => ?_, fun hloop => ?_⟩
  · simp only [Function.update_apply] at hq'
    split_ifs at hq' with hr
    · cases hq'
      subst hr
      exact h.waiting r' ⟨kind, key, .reserving⟩ hq hc
    · exact h.waiting r' q hq' hc
  · simp only [Function.update_apply] at hq'
    split_ifs at hq' with hr
    · cases hq'
      rw [hr]
      exact List.mem_append_right _ (List.mem_singleton_self _)
    · exact List.mem_append_left _ (h.owed r' q hq' hst hc)
  · obtain ⟨q, hq', hst⟩ := h.dropped r' hc
    exact ⟨q, hgone hq' hst, hst⟩
  · obtain ⟨r', q, hq', hst⟩ := h.aborted hloop
    exact ⟨r', q, hgone hq' hst, hst⟩

/-- A request's future goes away. -/
theorem cancel (h : Awaited t) (r : ℕ) (q : Req) :
    Awaited { t with
      reqs := Function.update t.reqs r (some { q with stage := .gone })
      chans := Function.update t.chans r (t.chans r).drop } := by
  have hgone : ∀ {r'}, (∃ q', t.reqs r' = some q' ∧ q'.stage = .gone) → ∃ q',
      Function.update t.reqs r (some { q with stage := .gone }) r' = some q'
        ∧ q'.stage = .gone := by
    rintro r' ⟨q', hq', hst⟩
    by_cases hr : r' = r
    · exact ⟨{ q with stage := .gone }, by rw [hr, Function.update_self], rfl⟩
    · exact ⟨q', by rw [Function.update_of_ne hr]; exact hq', hst⟩
  have hwaiting : ∀ {r'}, Function.update t.chans r (t.chans r).drop r' = .waiting →
      r' ≠ r ∧ t.chans r' = .waiting := by
    intro r' hc
    simp only [Function.update_apply] at hc
    split_ifs at hc with hr
    · cases hch : t.chans r <;> rw [hch] at hc <;> cases hc
    · exact ⟨hr, hc⟩
  refine ⟨fun r' q' hq' hc => ?_, fun r' q' hq' hst hc => ?_, fun r' hc => ?_, fun hloop => ?_⟩
  · obtain ⟨hr, hc⟩ := hwaiting hc
    dsimp only at hq'
    rw [Function.update_of_ne hr] at hq'
    exact h.waiting r' q' hq' hc
  · obtain ⟨hr, hc⟩ := hwaiting hc
    dsimp only at hq'
    rw [Function.update_of_ne hr] at hq'
    exact h.owed r' q' hq' hst hc
  · by_cases hr : r' = r
    · exact ⟨{ q with stage := .gone }, by simp [hr], rfl⟩
    · dsimp only at hc
      rw [Function.update_of_ne hr] at hc
      exact hgone (h.dropped r' hc)
  · obtain ⟨r', hr'⟩ := h.aborted hloop
    exact ⟨r', hgone hr'⟩

end Awaited

/-- The loop's turn on a `Response`: the message it is for is owed nothing more. -/
theorem Awaited.respond {t : LocalState R E B} (h : Awaited t) (hl : LiveInv t)
    {i : ℕ} {mid : UInt64} {src : Source} (res : Except (Error Unit E) R)
    (hi : t.pending[i]? = some (mid, src)) :
    Awaited { (t.log mid src res).handle intoBoxed (.response mid res) with
      pending := t.pending.eraseIdx i } := by
  -- A message that is still owed is not the one that is answered, unless its waiter is taken.
  have howed : ∀ r q, t.reqs r = some q → q.stage = .sent → t.chans r = .waiting →
      t.wrapper.waiters.slot (Slab.index mid) ≠ some ⟨q.kind, r⟩ →
      (requestMid q.key, .request r) ∈ t.pending.eraseIdx i := by
    intro r q hq hst hc hne
    obtain ⟨j, hj⟩ := List.getElem?_of_mem (h.owed r q hq hst hc)
    refine List.mem_eraseIdx_iff_getElem?.2 ⟨j, ?_, hj⟩
    rintro rfl
    rw [hi] at hj
    obtain ⟨rfl, -⟩ := Prod.mk.inj (Option.some.inj hj)
    rw [index_requestMid] at hne
    exact hne (h.waiting r q hq hc)
  have hslots : ∀ r q, t.reqs r = some q → t.chans r = .waiting →
      t.wrapper.waiters.slot (Slab.index mid) ≠ some ⟨q.kind, r⟩ →
      (t.wrapper.waiters.take mid).2.slot q.key = some ⟨q.kind, r⟩ := by
    intro r q hq hc hne
    have hslot := h.waiting r q hq hc
    rw [Slab.slot_take, if_neg]
    · exact hslot
    · intro hkey
      rw [hkey] at hslot
      exact hne hslot
  rcases hs : t.wrapper.waiters.slot (Slab.index mid) with _ | w
  · obtain ⟨c, hc⟩ := handle_response_free intoBoxed (s := t.log mid src res) res hs
    rw [hc]
    refine ⟨h.waiting, fun r q hq hst hc => ?_, h.dropped, by rintro ⟨⟩⟩
    exact howed r q hq hst hc (by rw [hs]; rintro ⟨⟩)
  · have hne : ∀ r q, r ≠ w.tx → t.wrapper.waiters.slot (Slab.index mid)
        ≠ some (⟨q, r⟩ : Waiter) := by
      rintro r q hr heq
      rw [hs] at heq
      exact hr (by rw [Option.some.inj heq])
    cases hch : t.chans w.tx with
    | waiting =>
      obtain ⟨c, hc⟩ := handle_response_waiting intoBoxed (s := t.log mid src res) res hs hch
      have hother : ∀ {r o}, o ≠ .sent (w.kind.reply intoBoxed res) →
          Function.update t.chans w.tx (.sent (w.kind.reply intoBoxed res)) r = o →
          r ≠ w.tx ∧ t.chans r = o := by
        intro r o ho hr
        simp only [Function.update_apply] at hr
        split_ifs at hr with hw
        · exact absurd hr.symm ho
        · exact ⟨hw, hr⟩
      rw [hc]
      refine ⟨fun r q hq hc => ?_, fun r q hq hst hc => ?_, fun r hc => ?_, by rintro ⟨⟩⟩
      · obtain ⟨hr, hc⟩ := hother (by rintro ⟨⟩) hc
        exact hslots r q hq hc (hne r q.kind hr)
      · obtain ⟨hr, hc⟩ := hother (by rintro ⟨⟩) hc
        exact howed r q hq hst hc (hne r q.kind hr)
      · exact h.dropped r (hother (by rintro ⟨⟩) hc).2
    | dropped =>
      obtain ⟨c, hc⟩ := handle_response_dropped intoBoxed (s := t.log mid src res) res hs hch
      have hother : ∀ {r}, t.chans r = .waiting → r ≠ w.tx := by
        rintro r hr rfl
        rw [hch] at hr
        cases hr
      rw [hc]
      refine ⟨fun r q hq hc => ?_, fun r q hq hst hc => ?_, h.dropped, fun _ => ?_⟩
      · exact hslots r q hq hc (hne r q.kind (hother hc))
      · exact howed r q hq hst hc (hne r q.kind (hother hc))
      · exact ⟨w.tx, h.dropped w.tx hch⟩
    | sent a => exact absurd hch ((hl.live _ _ hs).2 a)

theorem awaited_step {limit : UInt64} {t t' : LocalState R E B} {l : LocalLabel R E}
    (hl : LiveInv t) (h : Awaited t) (ht : (localReceiver intoBoxed limit).step t l = some t') :
    Awaited t' := by
  cases localStep intoBoxed ht with
  | fetchId => exact ⟨h.waiting, h.owed, h.dropped, h.aborted⟩
  | push mid force c =>
    exact ⟨h.waiting, fun r q hq hst hc => List.mem_append_left _ (h.owed r q hq hst hc), h.dropped,
      h.aborted⟩
  | request kind key hk => exact h.request hl kind hk
  | pushRequest r kind key c hq => exact h.sent hq c
  | cancel r q => exact h.cancel r q
  | respond i mid src res hrun hi => exact h.respond hl res hi
  | event ev c => exact ⟨h.waiting, h.owed, h.dropped, by rintro ⟨⟩⟩

theorem awaited_of_reachable {limit : UInt64} {t : LocalState R E B}
    (h : (localReceiver intoBoxed limit).Reachable t) : LiveInv t ∧ Awaited t := by
  refine Lts.invariant (J := fun t => LiveInv t ∧ Awaited t) ⟨.start limit, .start limit⟩ ?_ h
  exact fun _ _ _ h ht => ⟨liveInv_step intoBoxed h.1 ht, awaited_step h.1 h.2 ht⟩

end Abstract

section Simulation

variable {M R E B σ ℓ : Type} [StdSyncSendError E]

/-- A counted poller that answers no message twice, and whose queue once it is `shut` stays so. -/
structure Answering (P : Lts σ (PollerLabel M ℓ)) (V : PollerView σ R E)
    (accepted : σ → List (Request M)) (load : σ → ℕ) (Inv : σ → Prop) (shut : σ → Bool) : Prop
    extends Counted P V accepted load Inv where
  once : ∀ s, Inv s → ∀ mid, ((V.stx s).filterMap Event.mid?).count mid
    ≤ ((accepted s).filterMap Request.mid?).count mid
  shut_iff : ∀ s mid msg req, P.step s (.push (.request mid msg req)) = none ↔ shut s = true
  shut_step : ∀ s l s', shut s = true → P.step s l = some s' → shut s' = true

/-- A closable one that, left alone, has answered the messages it accepted where it stops, but those
`left`, unless its loop has panicked. -/
structure Replying (P : Lts σ (PollerLabel M ℓ)) (V : PollerView σ R E)
    (accepted : σ → List (Request M)) (load : σ → ℕ) (own : ℓ → Bool) (work : σ → ℕ)
    (Inv : σ → Prop) (shut : σ → Bool) (aborted : σ → Prop) (left : σ → List UInt64) : Prop
    extends Closable P V accepted load own work Inv, Answering P V accepted load Inv shut where
  replies : ∀ s, Inv s → (∀ l, own l = true → P.step s (.run l) = none) → ¬ aborted s → ∀ mid,
    ((accepted s).filterMap Request.mid?).count mid
      ≤ ((V.stx s).filterMap Event.mid?).count mid + (left s).count mid

/-- The receiver around a poller as `localReceiver` has it: a message is pending that was accepted
and whose `Response` the loop has not handled. After a send that was refused the counters go apart,
for no more is pushed then. -/
structure Abstracts (V : PollerView σ R E) (accepted : σ → List (Request M)) (shut : σ → Bool)
    (s : RequestsState σ R E B) (t : LocalState R E B) : Prop where
  waiters : t.wrapper.waiters = s.served.wrapper.waiters
  context : shut s.served.poller = false → t.wrapper.context = s.served.wrapper.context
  chans : t.chans = s.served.chans
  loop : t.loop = if s.served.loop = .aborted then .aborted else .running
  idCounter : t.idCounter = s.idCounter
  drawn : s.drawn.Subperm t.drawn
  reqs : t.reqs = s.reqs
  reqCount : t.reqCount = s.reqCount
  pending : (t.pending.map (·.1) ++ (s.served.processed V).filterMap Event.mid?).Perm
    ((accepted s.served.poller).filterMap Request.mid?)

variable {intoBoxed : R → B} {limit : UInt64} {P : Lts σ (PollerLabel M ℓ)} {V : PollerView σ R E}
  {accepted : σ → List (Request M)} {load work : σ → ℕ} {own : ℓ → Bool} {Inv aborted : σ → Prop}
  {shut : σ → Bool} {left : σ → List UInt64} {s s' : RequestsState σ R E B}
  {l : RequestsLabel M ℓ} {t : LocalState R E B}

/-- Everything a step can do. -/
inductive RequestsState.Move (intoBoxed : R → B) (P : Lts σ (PollerLabel M ℓ))
    (V : PollerView σ R E) (s : RequestsState σ R E B) :
    RequestsLabel M ℓ → RequestsState σ R E B → Prop
  | fetchId : Move intoBoxed P V s .fetchId
      { s with idCounter := s.idCounter + 1, drawn := s.drawn ++ [s.idCounter] }
  | push (mid : UInt64) (msg : M) (force : Bool) (c : ReceiverContext) (p : σ) : mid ∈ s.drawn →
      s.served.wrapper.context.reserve force = some c →
      P.step s.served.poller (.push (.request mid msg false)) = some p →
      Move intoBoxed P V s (.push mid msg force) { s with
        served.wrapper.context := c, served.poller := p, drawn := s.drawn.erase mid }
  | refuse (mid : UInt64) (msg : M) (force : Bool) (c : ReceiverContext) :
      P.step s.served.poller (.push (.request mid msg false)) = none →
      Move intoBoxed P V s (.push mid msg force)
        { s with served.wrapper.context := c, drawn := s.drawn.erase mid }
  | request (kind : WaiterKind) (key : Slab.Key) : s.served.wrapper.waiters.slot key = none →
      Move intoBoxed P V s (.request kind key) { s with
        served.wrapper.waiters :=
          ⟨Function.update s.served.wrapper.waiters.slot key (some ⟨kind, s.reqCount⟩)⟩
        reqs := Function.update s.reqs s.reqCount (some ⟨kind, key, .reserving⟩)
        reqCount := s.reqCount + 1 }
  | pushRequest (r : ℕ) (kind : WaiterKind) (key : Slab.Key) (msg : M) (c : ReceiverContext)
      (p : σ) : s.reqs r = some ⟨kind, key, .reserving⟩ →
      s.served.wrapper.context.reserve false = some c →
      P.step s.served.poller (.push (.request (requestMid key) msg true)) = some p →
      Move intoBoxed P V s (.pushRequest r msg) { s with
        served.wrapper.context := c
        served.poller := p
        reqs := Function.update s.reqs r (some ⟨kind, key, .sent⟩) }
  | refuseRequest (r : ℕ) (q : Req) (msg : M) (c : ReceiverContext) : s.reqs r = some q →
      P.step s.served.poller (.push (.request (requestMid q.key) msg true)) = none →
      Move intoBoxed P V s (.pushRequest r msg)
        { s.drop r q with served.wrapper.context := c }
  | cancel (r : ℕ) (q : Req) : s.reqs r = some q → Move intoBoxed P V s (.cancel r) (s.drop r q)
  | action (a : Action) (p : σ) : P.step s.served.poller (.push (.action a)) = some p →
      Move intoBoxed P V s (.action a) { s with served.poller := p }
  | serve (l : ServedLabel M ℓ) (served : ServedState σ R E B) : l.inner = true →
      s.served.step intoBoxed P V l = some served →
      Move intoBoxed P V s (.serve l) { s with served }

theorem RequestsState.move (hs : s.step intoBoxed P V l = some s') :
    s.Move intoBoxed P V l s' := by
  cases l with
  | fetchId =>
    cases hs
    exact .fetchId
  | push mid msg force =>
    simp only [step] at hs
    split_ifs at hs with hmid
    obtain ⟨u, hu, rfl⟩ := Option.map_eq_some_iff.1 hs
    obtain ⟨c, hc, rfl⟩ := Option.map_eq_some_iff.1 hu
    rcases hp : P.step s.served.poller (.push (.request mid msg false)) with _ | p
    · simp only [ServedState.step, hp, Option.map_none]
      exact .refuse mid msg force c hp
    · simp only [ServedState.step, hp, Option.map_some]
      exact .push mid msg force c p hmid hc hp
  | request kind key =>
    obtain ⟨u, hu, rfl⟩ := Option.map_eq_some_iff.1 hs
    obtain ⟨waiters, hw, rfl⟩ := Option.map_eq_some_iff.1 hu
    obtain ⟨hk, rfl⟩ := Slab.insert_eq_some.1 hw
    exact .request kind key hk
  | pushRequest r msg =>
    simp only [step] at hs
    split at hs
    · rename_i kind key hq
      obtain ⟨u, hu, rfl⟩ := Option.map_eq_some_iff.1 hs
      obtain ⟨c, hc, rfl⟩ := Option.map_eq_some_iff.1 hu
      rcases hp : P.step s.served.poller (.push (.request (requestMid key) msg true)) with _ | p
      · simp only [ServedState.step, hp, Option.map_none]
        exact .refuseRequest r ⟨kind, key, .reserving⟩ msg c hq hp
      · simp only [ServedState.step, hp, Option.map_some]
        exact .pushRequest r kind key msg c p hq hc hp
    · cases hs
  | cancel r =>
    obtain ⟨q, hq, rfl⟩ := Option.map_eq_some_iff.1 hs
    exact .cancel r q hq
  | action a =>
    obtain ⟨u, hu, rfl⟩ := Option.map_eq_some_iff.1 hs
    obtain ⟨p, hp, rfl⟩ := Option.map_eq_some_iff.1 hu
    exact .action a p hp
  | serve l =>
    simp only [step] at hs
    split_ifs at hs with hl
    obtain ⟨u, hu, rfl⟩ := Option.map_eq_some_iff.1 hs
    exact .serve l u hl hu

omit [StdSyncSendError E] in
theorem reserve_of_context {force : Bool} {c : ReceiverContext}
    (h : t.wrapper.context.reserve force = some c) :
    t.reserve force = some { t with wrapper.context := c } := by
  cases force with
  | false =>
    have h : t.wrapper.context.tryReserve = some c := h
    simp [LocalState.reserve, h]
  | true =>
    cases h
    rfl

/-- What a turn does to the waiters and the channels has nothing to do with the counters. -/
theorem handleEvent_context (intoBoxed : R → B) (w : ReceiverWrapper) (c : ReceiverContext)
    (chans : Channels R E B) {ev : Event R E} (h : ev.Plain) :
    (handleEvent intoBoxed ⟨w.waiters, c⟩ chans ev).wrapper.waiters
        = (handleEvent intoBoxed w chans ev).wrapper.waiters
      ∧ (handleEvent intoBoxed ⟨w.waiters, c⟩ chans ev).chans
        = (handleEvent intoBoxed w chans ev).chans
      ∧ (handleEvent intoBoxed ⟨w.waiters, c⟩ chans ev).loop
        = (handleEvent intoBoxed w chans ev).loop := by
  cases ev with
  | response mid res =>
    simp only [handleEvent, response, Slab.take]
    cases w.waiters.slot (Slab.index mid) with
    | none => exact ⟨rfl, rfl, rfl⟩
    | some waiter =>
      dsimp only
      cases (chans waiter.tx).send (waiter.kind.reply intoBoxed res) <;> exact ⟨rfl, rfl, rfl⟩
  | ready | flushed | synchronized | error => exact ⟨rfl, rfl, rfl⟩
  | _ => rcases h with h | h <;> cases h

omit [StdSyncSendError E] in
/-- A message that is accepted is pending. -/
theorem accepted_pending {pending : List (UInt64 × Source)} {answered mids : List UInt64}
    (h : (pending.map (·.1) ++ answered).Perm mids) (mid : UInt64) (src : Source) :
    ((pending ++ [(mid, src)]).map (·.1) ++ answered).Perm (mids ++ [mid]) := by
  refine List.perm_iff_count.2 fun m => ?_
  have := h.count_eq m
  simp only [List.map_append, List.map_cons, List.map_nil, List.count_append] at this ⊢
  omega

omit [StdSyncSendError E] in
/-- The poller goes on, and accepts no message. -/
theorem Abstracts.poller (h : Abstracts V accepted shut s t)
    (hheard : s.served.heard ≤ (V.stx s.served.poller).length) {p : σ}
    (hstx : V.stx s.served.poller <+: V.stx p)
    (hacc : (accepted p).filterMap Request.mid?
      = (accepted s.served.poller).filterMap Request.mid?)
    (hshut : shut s.served.poller = true → shut p = true) :
    Abstracts V accepted shut { s with served.poller := p } t where
  __ := h
  context hp := h.context (by
    by_contra hs
    rw [hshut (by simpa using hs)] at hp
    cases hp)
  pending := by
    obtain ⟨evs, hevs⟩ := hstx
    have hprocessed : ServedState.processed V { s.served with poller := p }
        = s.served.processed V := by
      simp only [ServedState.processed, ← hevs]
      exact List.take_append_of_le_length hheard
    rw [hprocessed]
    simp only [hacc]
    exact h.pending

/-- Both loops handle the event alike, whatever is pending after it. -/
theorem Abstracts.handled {t' : LocalState R E B} {served : ServedState σ R E B} {ev : Event R E}
    (h : Abstracts V accepted shut s t) (hplain : ev.Plain)
    (hev : (V.stx s.served.poller)[s.served.heard]? = some ev)
    (hs : s.served.step intoBoxed P V .turn = some served)
    (hwrapper : t'.wrapper = (handleEvent intoBoxed t.wrapper t.chans ev).wrapper)
    (hchans : t'.chans = (handleEvent intoBoxed t.wrapper t.chans ev).chans)
    (hloop : t'.loop = (handleEvent intoBoxed t.wrapper t.chans ev).loop)
    (hid : t'.idCounter = t.idCounter) (hdrawn : t'.drawn = t.drawn) (hreqs : t'.reqs = t.reqs)
    (hcount : t'.reqCount = t.reqCount)
    (hpending : (t'.pending.map (·.1)
      ++ ((s.served.processed V).filterMap Event.mid? ++ [ev].filterMap Event.mid?)).Perm
        ((accepted s.served.poller).filterMap Request.mid?)) :
    Abstracts V accepted shut { s with served } t' := by
  simp only [ServedState.step] at hs
  split_ifs at hs
  rw [hev] at hs
  cases hs
  have hw : t.wrapper = ⟨s.served.wrapper.waiters, t.wrapper.context⟩ := by
    rw [← h.waiters]
  obtain ⟨hwaiters, hc, hl⟩ := handleEvent_context intoBoxed s.served.wrapper
    t.wrapper.context s.served.chans hplain
  rw [← hw, ← h.chans] at hwaiters hc hl
  refine ⟨?_, fun hshut => ?_, ?_, ?_, hid.trans h.idCounter, hdrawn ▸ h.drawn, hreqs.trans h.reqs,
    hcount.trans h.reqCount, ?_⟩
  · rw [hwrapper, hwaiters, h.chans]
  · rw [hwrapper, hw, h.context hshut, h.chans]
  · rw [hchans, hc, h.chans]
  · rw [hloop, hl, h.chans]
    have hloops : ∀ x : Loop, x ≠ .ended → x = if x = .aborted then .aborted else .running := by
      intro x hx
      cases x with
      | ended => exact absurd rfl hx
      | running | aborted => rfl
    exact hloops _ (plain_handleEvent intoBoxed s.served.wrapper s.served.chans hplain).1
  · show (_ ++ ((V.stx s.served.poller).take (s.served.heard + 1)).filterMap Event.mid?).Perm _
    rw [List.take_add_one, hev, Option.toList_some, List.filterMap_append]
    exact hpending

/-- The event loop handles an event of the poller, and `localReceiver` the same. -/
theorem Abstracts.turn (hP : Answering P V accepted load Inv shut) (hinv : Inv s.served.poller)
    (h : Abstracts V accepted shut s t) {served : ServedState σ R E B}
    (hs : s.served.step intoBoxed P V .turn = some served) :
    ∃ k t', (localReceiver intoBoxed limit).step t k = some t'
      ∧ Abstracts V accepted shut { s with served } t' := by
  obtain ⟨hloop, ev, hev⟩ : s.served.loop = .running
      ∧ ∃ ev, (V.stx s.served.poller)[s.served.heard]? = some ev := by
    simp only [ServedState.step] at hs
    split_ifs at hs with hloop
    obtain ⟨ev, hev, -⟩ := Option.map_eq_some_iff.1 hs
    exact ⟨hloop, ev, hev⟩
  have hplain := hP.quiet _ hinv _ (List.mem_of_getElem? hev)
  have hrunning : t.loop = .running := by
    rw [h.loop, hloop]
    rfl
  have hother : ev.fromPoller = true → ∃ k t', (localReceiver intoBoxed limit).step t k = some t'
      ∧ Abstracts V accepted shut { s with served } t' := by
    intro hfrom
    refine ⟨.event ev, _, if_pos ⟨hrunning, hfrom⟩,
      h.handled hplain hev hs rfl rfl rfl rfl rfl rfl rfl ?_⟩
    have hnone : [ev].filterMap Event.mid? = [] := by simp [mid_fromPoller hfrom]
    rw [hnone, List.append_nil]
    exact h.pending
  cases ev with
  | response mid res =>
    -- Its message is pending: the stream has no more `Response`s to it than it was accepted.
    have hle := hP.once _ hinv mid
    have hprefix : ((V.stx s.served.poller).take (s.served.heard + 1)).filterMap Event.mid?
        <+: (V.stx s.served.poller).filterMap Event.mid? := (List.take_prefix _ _).filterMap _
    have htake := hprefix.sublist.count_le mid
    rw [List.take_add_one, hev, Option.toList_some, List.filterMap_append] at htake
    have hcount := h.pending.count_eq mid
    simp only [List.count_append, ServedState.processed, List.filterMap_cons, Event.mid?,
      List.filterMap_nil, List.count_cons_self, List.count_nil] at htake hcount
    have hmem : mid ∈ t.pending.map (·.1) := List.count_pos_iff.1 (by omega)
    obtain ⟨⟨mid', src⟩, hsrc, hmid⟩ := List.mem_map.1 hmem
    obtain rfl : mid' = mid := hmid
    obtain ⟨i, hi⟩ := List.getElem?_of_mem hsrc
    have hstep : (localReceiver intoBoxed limit).step t (.respond i res)
        = some { (t.log mid' src res).handle intoBoxed (.response mid' res) with
          pending := t.pending.eraseIdx i } := by
      simp only [localReceiver, LocalState.step, if_pos hrunning, hi, Option.map_some]
    refine ⟨_, _, hstep, h.handled hplain hev hs rfl rfl rfl rfl rfl rfl rfl ?_⟩
    obtain ⟨hlt, hget⟩ := List.getElem?_eq_some_iff.1 hi
    have hperm := (List.getElem_cons_eraseIdx_perm hlt).map (·.1)
    rw [hget, List.map_cons] at hperm
    refine List.perm_iff_count.2 fun m => ?_
    have hm := h.pending.count_eq m
    have hcons := hperm.count_eq m
    simp only [List.count_append, List.count_cons, List.filterMap_cons, Event.mid?,
      List.filterMap_nil, List.count_nil] at hm hcons ⊢
    omega
  | ready | flushed | synchronized | error => exact hother rfl
  | _ => rcases hplain with hplain | hplain <;> cases hplain

theorem abstracts_step (hP : Answering P V accepted load Inv shut) (hinv : Inv s.served.poller)
    (hheard : s.served.heard ≤ (V.stx s.served.poller).length) (h : Abstracts V accepted shut s t)
    (hs : s.step intoBoxed P V l = some s') : Abstracts V accepted shut s' t
      ∨ ∃ k t', (localReceiver intoBoxed limit).step t k = some t'
        ∧ Abstracts V accepted shut s' t' := by
  have hopen : ∀ {mid msg req p}, P.step s.served.poller (.push (.request mid msg req)) = some p →
      shut s.served.poller = false := by
    intro mid msg req p hp
    by_contra hshut
    rw [(hP.shut_iff _ mid msg req).2 (by simpa using hshut)] at hp
    cases hp
  have hclosed : ∀ {mid msg req}, P.step s.served.poller (.push (.request mid msg req)) = none →
      shut s.served.poller ≠ false := by
    intro mid msg req hp
    rw [(hP.shut_iff _ mid msg req).1 hp]
    rintro ⟨⟩
  have hpending : ∀ {mid msg req p} (c : ReceiverContext) (src : Source),
      P.step s.served.poller (.push (.request mid msg req)) = some p →
      ((t.pending ++ [(mid, src)]).map (·.1) ++ (ServedState.processed V
        { s.served with wrapper.context := c, poller := p }).filterMap Event.mid?).Perm
          ((accepted p).filterMap Request.mid?) := by
    intro mid msg req p c src hp
    obtain ⟨hacc, hstx⟩ := hP.push _ _ _ hp
    simp only [ServedState.processed, hstx, hacc, List.filterMap_append]
    exact accepted_pending h.pending mid src
  have hcancel : ∀ {r q}, s.reqs r = some q →
      (localReceiver intoBoxed limit).step t (.cancel r) = some { t with
        reqs := Function.update t.reqs r (some { q with stage := .gone })
        chans := Function.update t.chans r (t.chans r).drop } := by
    intro r q hq
    simp only [localReceiver, LocalState.step, h.reqs, hq, Option.map_some]
  cases RequestsState.move hs with
  | fetchId =>
    have hstep : (localReceiver intoBoxed limit).step t .fetchId
        = some { t with idCounter := t.idCounter + 1, drawn := t.drawn ++ [t.idCounter] } := rfl
    exact .inr ⟨_, _, hstep, { h with
      idCounter := by rw [h.idCounter]
      drawn := by rw [h.idCounter]; exact (List.subperm_append_right _).2 h.drawn }⟩
  | push mid msg force c p hmid hc hp =>
    rw [← h.context (hopen hp)] at hc
    have hstep : (localReceiver intoBoxed limit).step t (.push mid force) = some { t with
        wrapper.context := c
        drawn := t.drawn.erase mid
        pending := t.pending ++ [(mid, .plain)] } := by
      simp only [localReceiver, LocalState.step, if_pos (h.drawn.subset hmid),
        reserve_of_context hc, Option.map_some]
    exact .inr ⟨_, _, hstep, { h with
      context := fun _ => rfl
      drawn := h.drawn.erase mid
      pending := hpending c .plain hp }⟩
  | refuse mid msg force c hp =>
    exact .inl { h with
      context := fun hshut => absurd hshut (hclosed hp)
      drawn := (List.erase_sublist.subperm).trans h.drawn }
  | request kind key hk =>
    have hk' : t.wrapper.waiters.slot key = none := by
      rw [h.waiters]
      exact hk
    have hstep : (localReceiver intoBoxed limit).step t (.request kind key) = some { t with
        wrapper.waiters := ⟨Function.update t.wrapper.waiters.slot key (some ⟨kind, t.reqCount⟩)⟩
        reqs := Function.update t.reqs t.reqCount (some ⟨kind, key, .reserving⟩)
        reqCount := t.reqCount + 1 } := by
      simp only [localReceiver, LocalState.step, Slab.insert, if_pos hk', Option.map_some]
    exact .inr ⟨_, _, hstep, { h with
      waiters := by rw [h.waiters, h.reqCount]
      reqs := by rw [h.reqs, h.reqCount]
      reqCount := by rw [h.reqCount] }⟩
  | pushRequest r kind key msg c p hq hc hp =>
    rw [← h.context (hopen hp)] at hc
    have hstep : (localReceiver intoBoxed limit).step t (.pushRequest r) = some { t with
        wrapper.context := c
        reqs := Function.update t.reqs r (some ⟨kind, key, .sent⟩)
        pending := t.pending ++ [(requestMid key, .request r)] } := by
      simp only [localReceiver, LocalState.step, h.reqs, hq, reserve_of_context hc,
        Option.map_some]
    exact .inr ⟨_, _, hstep, { h with
      context := fun _ => rfl
      reqs := by rw [h.reqs]
      pending := hpending c (.request r) hp }⟩
  | refuseRequest r q msg c hq hp =>
    exact .inr ⟨_, _, hcancel hq, { h with
      context := fun hshut => absurd hshut (hclosed hp)
      reqs := by rw [h.reqs]; rfl
      chans := by rw [h.chans]; rfl }⟩
  | cancel r q hq =>
    exact .inr ⟨_, _, hcancel hq, { h with
      reqs := by rw [h.reqs]; rfl
      chans := by rw [h.chans]; rfl }⟩
  | action a p hp =>
    obtain ⟨hacc, hstx⟩ := hP.push _ _ _ hp
    refine .inl (h.poller hheard (by rw [hstx]) ?_ fun hshut => hP.shut_step _ _ _ hshut hp)
    simp [hacc, Request.mid?]
  | serve l served hl hstep =>
    cases l with
    | run m =>
      obtain ⟨p, hp, rfl⟩ := Option.map_eq_some_iff.1 hstep
      obtain ⟨hacc, hstx⟩ := hP.run _ _ _ hp
      exact .inl (h.poller hheard hstx (by rw [hacc]) fun hshut =>
        hP.shut_step _ _ _ hshut hp)
    | turn => exact .inr (h.turn hP hinv hstep)
    | endStream =>
      simp only [ServedState.step] at hstep
      split_ifs at hstep with hend
      cases hstep
      refine .inl { h with loop := ?_ }
      rw [h.loop, hend.1]
      rfl
    | push | listen | hangUp => cases hl

/-- The receiver's own invariant, whatever its senders and callers do. -/
theorem servedInv_requests (hP : Closable P V accepted load own work Inv)
    (h : ServedInv V Inv s.served) (hs : s.step intoBoxed P V l = some s') :
    ServedInv V Inv s'.served := by
  have hpush : ∀ {item p} (w : ReceiverWrapper), P.step s.served.poller (.push item) = some p →
      ServedInv V Inv { s.served with wrapper := w, poller := p } := by
    intro item p w hp
    have hstep : s.served.step intoBoxed P V (.push item) = some { s.served with poller := p } := by
      simp only [ServedState.step, hp, Option.map_some]
    have := servedInv_step hP h hstep
    exact ⟨this.poller, this.heard, this.ended⟩
  cases RequestsState.move hs with
  | push mid msg force c p _ _ hp => exact hpush _ hp
  | pushRequest r kind key msg c p _ _ hp => exact hpush _ hp
  | action a p hp => exact hpush _ hp
  | serve l served _ hstep => exact servedInv_step hP h hstep
  | _ => exact ⟨h.poller, h.heard, h.ended⟩

/-- The poller's invariant and the loop's place in the stream, whatever the callers do. -/
theorem within_requests (hP : Counted P V accepted load Inv) (hinv : Inv s.served.poller)
    (hheard : s.served.heard ≤ (V.stx s.served.poller).length)
    (hs : s.step intoBoxed P V l = some s') :
    Inv s'.served.poller ∧ s'.served.heard ≤ (V.stx s'.served.poller).length := by
  have hpush : ∀ {item p}, P.step s.served.poller (.push item) = some p →
      Inv p ∧ s.served.heard ≤ (V.stx p).length := by
    intro item p hp
    refine ⟨hP.step _ _ _ hinv hp, ?_⟩
    rw [(hP.push _ _ _ hp).2]
    exact hheard
  cases RequestsState.move hs with
  | push mid msg force c p _ _ hp => exact hpush hp
  | pushRequest r kind key msg c p _ _ hp => exact hpush hp
  | action a p hp => exact hpush hp
  | serve l served _ hstep =>
    refine ⟨?_, (hP.told_serve hheard hstep).1⟩
    rcases serve_cases hstep with ⟨item, -, hp, -⟩ | ⟨m, -, hp, -⟩ | ⟨ev, -, -, hp, -⟩
        | ⟨-, -, hp, -⟩
    · exact hP.step _ _ _ hinv hp
    · exact hP.step _ _ _ hinv hp
    · rw [hp]
      exact hinv
    · rw [hp]
      exact hinv
  | _ => exact ⟨hinv, hheard⟩

/-- `localReceiver` allows all that a receiver around such a poller does. -/
theorem Answering.simulation (hP : Answering P V accepted load Inv shut) (intoBoxed : R → B)
    (limit : UInt64) :
    Lts.Simulation (requestedReceiver intoBoxed limit P V) (localReceiver intoBoxed limit)
      fun s t => (Inv s.served.poller ∧ s.served.heard ≤ (V.stx s.served.poller).length)
        ∧ Abstracts V accepted shut s t where
  start := by
    refine ⟨⟨hP.start, Nat.zero_le _⟩, rfl, fun _ => rfl, rfl, rfl, rfl, ?_, rfl, rfl, ?_⟩
    · exact .refl []
    · show (_ ++ ((V.stx P.start).take 0).filterMap Event.mid?).Perm
        ((accepted P.start).filterMap Request.mid?)
      rw [hP.fresh]
      exact .nil
  step s t l s' h hs := by
    have hwithin := within_requests hP.toCounted h.1.1 h.1.2 hs
    rcases abstracts_step hP h.1.1 h.1.2 h.2 hs with ht | ⟨k, t', ht, h'⟩
    · exact .inl ⟨hwithin, ht⟩
    · exact .inr ⟨k, t', ht, hwithin, h'⟩

end Simulation

section Replies

variable {M R E B σ ℓ : Type} [StdSyncSendError E]

/-- What a request has been sent is what a `Response` of the stream to its slot carried, as its kind
of waiter is given it. -/
def Replied (intoBoxed : R → B) (chans : Channels R E B) (reqs : ℕ → Option Req)
    (evs : List (Event R E)) : Prop :=
  ∀ r reply, chans r = .sent reply → ∃ q mid res, reqs r = some q ∧ .response mid res ∈ evs
    ∧ Slab.index mid = q.key ∧ reply = q.kind.reply intoBoxed res

/-- The steps the poller and the event loop take by themselves. -/
def RequestsLabel.own (own : ℓ → Bool) : RequestsLabel M ℓ → Bool
  | .serve l => l.own own
  | _ => false

/-- Of a receiver around `P`: left alone it stops, and unless the poller or the event loop has
panicked every request whose message was accepted has its reply by then, but those `left`. A reply
is what a `Response` to the request's slot carried, and the loop panics only after a caller has
gone. -/
def RequestsComeBack (intoBoxed : R → B) (limit : UInt64) (P : Lts σ (PollerLabel M ℓ))
    (V : PollerView σ R E) (own : ℓ → Bool) (work : σ → ℕ) (aborted : σ → Prop)
    (left : σ → List UInt64) : Prop :=
  ∀ s, (requestedReceiver intoBoxed limit P V).Reachable s →
    (requestedReceiver intoBoxed limit P V).Settles (RequestsLabel.own own)
        (s.served.work V work) (fun t => t.served.loop ≠ .aborted → ¬ aborted t.served.poller →
          ∀ r q, t.reqs r = some q → q.stage = .sent →
            (∃ reply, t.served.chans r = .sent reply) ∨ requestMid q.key ∈ left t.served.poller) s
      ∧ Replied intoBoxed s.served.chans s.reqs (s.served.processed V)
      ∧ (s.served.loop = .aborted → ∃ r q, s.reqs r = some q ∧ q.stage = .gone)

/-- `localReceiver` allows what the receiver around `P` does: whatever state it reaches,
`localReceiver` reaches one with the same waiters, channels and requests, whose loop has panicked
where this one has, in as many steps or fewer. -/
def RefinesLocal (intoBoxed : R → B) (limit : UInt64) (P : Lts σ (PollerLabel M ℓ))
    (V : PollerView σ R E) (accepted : σ → List (Request M)) (shut : σ → Bool) : Prop :=
  ∀ ls s, (requestedReceiver intoBoxed limit P V).run ls = some s →
    ∃ ks t, (localReceiver intoBoxed limit).run ks = some t ∧ ks.length ≤ ls.length
      ∧ Abstracts V accepted shut s t

variable {intoBoxed : R → B} {limit : UInt64} {P : Lts σ (PollerLabel M ℓ)} {V : PollerView σ R E}
  {accepted : σ → List (Request M)} {load work : σ → ℕ} {own : ℓ → Bool} {Inv aborted : σ → Prop}
  {shut : σ → Bool} {left : σ → List UInt64} {s s' : RequestsState σ R E B}
  {l : RequestsLabel M ℓ} {t : LocalState R E B}

theorem Answering.refinesLocal (hP : Answering P V accepted load Inv shut) (intoBoxed : R → B)
    (limit : UInt64) : RefinesLocal intoBoxed limit P V accepted shut := by
  intro ls s hs
  have hsim := hP.simulation intoBoxed limit
  obtain ⟨ks, t, hks, hle, -, h⟩ := hsim.runFrom hsim.start hs
  exact ⟨ks, t, hks, hle, h⟩

theorem Replied.setReq {chans : Channels R E B} {reqs : ℕ → Option Req} {evs : List (Event R E)}
    (h : Replied intoBoxed chans reqs evs) {r : ℕ} {q : Req}
    (hq : ∀ q', reqs r = some q' → q'.key = q.key ∧ q'.kind = q.kind) :
    Replied intoBoxed chans (Function.update reqs r (some q)) evs := by
  intro r' reply hr'
  obtain ⟨q', mid, res, hq', hres, hkey, hreply⟩ := h r' reply hr'
  by_cases hr : r' = r
  · subst hr
    obtain ⟨hk, hkind⟩ := hq q' hq'
    exact ⟨q, mid, res, Function.update_self .., hres, hkey.trans hk, by rw [hreply, hkind]⟩
  · exact ⟨q', mid, res, by rw [Function.update_of_ne hr]; exact hq', hres, hkey, hreply⟩

theorem Replied.drop {chans : Channels R E B} {reqs : ℕ → Option Req} {evs : List (Event R E)}
    (h : Replied intoBoxed chans reqs evs) (r : ℕ) :
    Replied intoBoxed (Function.update chans r (chans r).drop) reqs evs := by
  intro r' reply hr'
  refine h r' reply ?_
  simp only [Function.update_apply] at hr'
  split_ifs at hr' with hr
  · rw [hr]
    exact Oneshot.drop_eq_sent.1 hr'
  · exact hr'

/-- A turn sends to the request whose waiter it takes, and to no other. -/
theorem Replied.handled {w : ReceiverWrapper} {chans : Channels R E B} {reqs : ℕ → Option Req}
    {evs : List (Event R E)} (h : Replied intoBoxed chans reqs evs)
    (hlive : ∀ k waiter, w.waiters.slot k = some waiter →
      ∃ q, reqs waiter.tx = some q ∧ q.key = k ∧ q.kind = waiter.kind) (ev : Event R E) :
    Replied intoBoxed (handleEvent intoBoxed w chans ev).chans reqs (evs ++ [ev]) := by
  have hmore : Replied intoBoxed chans reqs (evs ++ [ev]) := by
    intro r reply hr
    obtain ⟨q, mid, res, hq, hres, hreply⟩ := h r reply hr
    exact ⟨q, mid, res, hq, List.mem_append_left _ hres, hreply⟩
  cases ev with
  | response mid res =>
    simp only [handleEvent, response, Slab.take]
    rcases hw : w.waiters.slot (Slab.index mid) with _ | waiter
    · exact hmore
    · dsimp only
      rcases hc : (chans waiter.tx).send (waiter.kind.reply intoBoxed res) with _ | c
      · exact hmore
      · obtain ⟨-, rfl⟩ := Oneshot.send_eq_some.1 hc
        intro r reply hr
        simp only [Function.update_apply] at hr
        split_ifs at hr with htx
        · cases hr
          obtain ⟨q, hq, hkey, hkind⟩ := hlive _ _ hw
          exact ⟨q, mid, res, htx ▸ hq, List.mem_append_right _ (List.mem_singleton_self _),
            hkey.symm, by rw [hkind]⟩
        · exact hmore r reply hr
  | _ => exact hmore

theorem replied_step (hP : Replying P V accepted load own work Inv shut aborted left)
    (hserved : ServedInv V Inv s.served) (hl : LiveInv t) (ht : Abstracts V accepted shut s t)
    (h : Replied intoBoxed s.served.chans s.reqs (s.served.processed V))
    (hs : s.step intoBoxed P V l = some s') :
    Replied intoBoxed s'.served.chans s'.reqs (s'.served.processed V) := by
  have hstx : ∀ {w : ReceiverWrapper} {p : σ}, V.stx s.served.poller <+: V.stx p →
      ServedState.processed V { s.served with wrapper := w, poller := p }
        = s.served.processed V := by
    rintro w p ⟨evs, hevs⟩
    simp only [ServedState.processed, ← hevs]
    exact List.take_append_of_le_length hserved.heard
  have hpush : ∀ {w : ReceiverWrapper} {item p}, P.step s.served.poller (.push item) = some p →
      ServedState.processed V { s.served with wrapper := w, poller := p }
        = s.served.processed V := fun {w item p} hp =>
    hstx (by rw [(hP.push _ _ _ hp).2])
  have hlive : ∀ k waiter, s.served.wrapper.waiters.slot k = some waiter →
      ∃ q, s.reqs waiter.tx = some q ∧ q.key = k ∧ q.kind = waiter.kind := by
    rw [← ht.waiters, ← ht.reqs]
    exact fun k waiter hw => (hl.live k waiter hw).1
  cases RequestsState.move hs with
  | fetchId | refuse => exact h
  | push mid msg force c p _ _ hp =>
    rw [hpush hp]
    exact h
  | request kind key =>
    refine h.setReq fun q' hq' => ?_
    rw [← ht.reqs, ← ht.reqCount, hl.freshReq _ (Nat.le_refl _)] at hq'
    cases hq'
  | pushRequest r kind key msg c p hq _ hp =>
    rw [hpush hp]
    refine h.setReq fun q' hq' => ?_
    rw [hq] at hq'
    cases hq'
    exact ⟨rfl, rfl⟩
  | refuseRequest r q msg c hq | cancel r q hq =>
    refine (h.drop r).setReq fun q' hq' => ?_
    rw [hq] at hq'
    cases hq'
    exact ⟨rfl, rfl⟩
  | action a p hp =>
    rw [hpush hp]
    exact h
  | serve l served hinner hstep =>
    cases l with
    | run m =>
      obtain ⟨p, hp, rfl⟩ := Option.map_eq_some_iff.1 hstep
      rw [hstx (hP.run _ _ _ hp).2]
      exact h
    | turn =>
      simp only [ServedState.step] at hstep
      split_ifs at hstep
      obtain ⟨ev, hev, rfl⟩ := Option.map_eq_some_iff.1 hstep
      have := h.handled hlive ev
      rwa [ServedState.processed, ← Option.toList_some, ← hev, ← List.take_add_one] at this
    | endStream =>
      simp only [ServedState.step] at hstep
      split_ifs at hstep
      cases hstep
      exact h
    | push | listen | hangUp => cases hinner

/-- What is kept of a receiver and its requests. -/
def RequestsInv (intoBoxed : R → B) (limit : UInt64) (V : PollerView σ R E)
    (accepted : σ → List (Request M)) (Inv : σ → Prop) (shut : σ → Bool)
    (s : RequestsState σ R E B) : Prop :=
  ∃ t, (localReceiver intoBoxed limit).Reachable t ∧ ServedInv V Inv s.served
    ∧ Abstracts V accepted shut s t
    ∧ Replied intoBoxed s.served.chans s.reqs (s.served.processed V)

theorem requestsInv_step (hP : Replying P V accepted load own work Inv shut aborted left)
    (h : RequestsInv intoBoxed limit V accepted Inv shut s)
    (hs : s.step intoBoxed P V l = some s') :
    RequestsInv intoBoxed limit V accepted Inv shut s' := by
  obtain ⟨t, ht, hserved, habs, hreplied⟩ := h
  have hreplied := replied_step hP hserved (awaited_of_reachable ht).1 habs hreplied hs
  have hserved' := servedInv_requests hP.toClosable hserved hs
  rcases abstracts_step hP.toAnswering hserved.poller hserved.heard habs hs with habs
    | ⟨k, t', hk, habs⟩
  · exact ⟨t, ht, hserved', habs, hreplied⟩
  · exact ⟨t', ht.step hk, hserved', habs, hreplied⟩

/-- A request that waits at rest has its message among those left. -/
theorem requests_rest (hP : Replying P V accepted load own work Inv shut aborted left)
    (h : RequestsInv intoBoxed limit V accepted Inv shut s)
    (hq : (requestedReceiver intoBoxed limit P V).Quiet (RequestsLabel.own own) s)
    (hloop : s.served.loop ≠ .aborted) (hpoller : ¬ aborted s.served.poller) {r : ℕ} {q : Req}
    (hr : s.reqs r = some q) (hst : q.stage = .sent) :
    (∃ reply, s.served.chans r = .sent reply) ∨ requestMid q.key ∈ left s.served.poller := by
  obtain ⟨t, ht, hserved, habs, -⟩ := h
  obtain ⟨-, hawaited⟩ := awaited_of_reachable ht
  have hno : ∀ l : ServedLabel M ℓ, l.own own = true → s.served.step intoBoxed P V l = none := by
    intro l hl
    have hinner : l.inner = true := by
      cases l <;> first | rfl | cases hl
    have : s.step intoBoxed P V (.serve l) = none := hq (.serve l) hl
    simpa [RequestsState.step, hinner] using this
  obtain ⟨hquiet, hheard⟩ := heard_of_quiet hserved hno
  cases hc : s.served.chans r with
  | sent reply => exact .inl ⟨reply, rfl⟩
  | dropped =>
    obtain ⟨q', hq', hgone⟩ := hawaited.dropped r (by rw [habs.chans, hc])
    rw [habs.reqs, hr] at hq'
    cases hq'
    rw [hst] at hgone
    cases hgone
  | waiting =>
    refine .inr ?_
    have hmem := hawaited.owed r q (by rw [habs.reqs, hr]) hst (by rw [habs.chans, hc])
    have hpos : 0 < (t.pending.map (·.1)).count (requestMid q.key) :=
      List.count_pos_iff.2 (List.mem_map_of_mem hmem)
    have hcount := habs.pending.count_eq (requestMid q.key)
    have hreplies := hP.replies _ hserved.poller hquiet hpoller (requestMid q.key)
    rw [List.count_append, ServedState.processed, hheard hloop, List.take_length] at hcount
    exact List.count_pos_iff.1 (by omega)

theorem Replying.requestsComeBack
    (hP : Replying P V accepted load own work Inv shut aborted left) (intoBoxed : R → B)
    (limit : UInt64) : RequestsComeBack intoBoxed limit P V own work aborted left := by
  intro s hs
  have h : RequestsInv intoBoxed limit V accepted Inv shut s := by
    refine Lts.invariant ⟨_, .start, ⟨hP.start, Nat.zero_le _, by rintro ⟨⟩⟩,
      (hP.toAnswering.simulation intoBoxed limit).start.2, by rintro _ _ ⟨⟩⟩ ?_ hs
    exact fun s l s' h hs => requestsInv_step hP h hs
  have hstep : ∀ s l s', RequestsInv intoBoxed limit V accepted Inv shut s →
      RequestsLabel.own own l = true → (requestedReceiver intoBoxed limit P V).step s l = some s' →
      RequestsInv intoBoxed limit V accepted Inv shut s'
        ∧ s'.served.work V work < s.served.work V work := by
    intro s l s' h hl hs
    refine ⟨requestsInv_step hP h hs, ?_⟩
    obtain ⟨-, -, hserved, -⟩ := h
    cases RequestsState.move hs with
    | serve l served _ hstep => exact served_work hP.toClosable hserved hl hstep
    | _ => cases hl
  refine ⟨Lts.settles_of_work hstep ?_ h, ?_, fun hloop => ?_⟩
  · exact fun s h hq hloop hpoller r q => requests_rest hP h hq hloop hpoller
  · obtain ⟨-, -, -, -, hreplied⟩ := h
    exact hreplied
  · obtain ⟨t, ht, -, habs, -⟩ := h
    have := (awaited_of_reachable ht).2.aborted (by rw [habs.loop, hloop]; rfl)
    rwa [habs.reqs] at this

end Replies

section Pollers

/-- A poller is counted as well with handlers that return. -/
theorem Counted.returning {M R E σ ℓ : Type} {P : Lts σ (PollerLabel M ℓ)}
    {panic : σ → Panic → Option σ} {V : PollerView σ R E} {accepted : σ → List (Request M)}
    {load : σ → ℕ} {Inv : σ → Prop} (h : Counted (withPanics P panic) V accepted load Inv) :
    Counted P V accepted load Inv where
  start := h.start
  fresh := h.fresh
  silent := h.silent
  step s l s' hs hstep := by
    rcases l with item | l
    · exact h.step s (.push item) s' hs hstep
    · exact h.step s (.run (.inl l)) s' hs hstep
  push s item s' hstep := h.push s item s' hstep
  run s l s' hstep := h.run s (.inl l) s' hstep
  load_le := h.load_le
  quiet := h.quiet

/-- It is closable as well, where what may panic may return. -/
theorem Closable.returning {M R E σ ℓ : Type} {P : Lts σ (PollerLabel M ℓ)}
    {panic : σ → Panic → Option σ} {V : PollerView σ R E} {accepted : σ → List (Request M)}
    {load work : σ → ℕ} {own : ℓ ⊕ Panic → Bool} {Inv : σ → Prop}
    (h : Closable ((withPanics P panic).restrict PollerLabel.noStats) V accepted load own work Inv)
    (hquiet : ∀ s, (∀ l, own (.inl l) = true → P.step s (.run l) = none) →
      ∀ l, own l = true → (withPanics P panic).step s (.run l) = none) :
    Closable (P.restrict PollerLabel.noStats) V accepted load (fun l => own (.inl l)) work Inv := by
  have hpush : ∀ {s item}, (P.restrict PollerLabel.noStats).step s (.push item)
      = ((withPanics P panic).restrict PollerLabel.noStats).step s (.push item) := by
    intro s item
    rcases item with a | _
    · cases a <;> rfl
    · rfl
  have hrun : ∀ {s l}, (P.restrict PollerLabel.noStats).step s (.run l)
      = ((withPanics P panic).restrict PollerLabel.noStats).step s (.run (.inl l)) := rfl
  constructor
  · constructor
    · exact h.start
    · exact h.fresh
    · exact h.silent
    · rintro s (item | l) s' hs hstep
      · exact h.step s (.push item) s' hs (hpush ▸ hstep)
      · exact h.step s (.run (.inl l)) s' hs hstep
    · exact fun s item s' hstep => h.push s item s' (hpush ▸ hstep)
    · exact fun s l s' hstep => h.run s (.inl l) s' hstep
    · exact h.load_le
    · exact h.quiet
  · exact fun s s' hstep => h.close s s' (hpush ▸ hstep)
  · exact fun s l s' hs hstep => h.emits s (.inl l) s' hs hstep
  · exact fun s l s' hs hl hstep => h.less s (.inl l) s' hs hl hstep
  · exact fun s item hs hsilent => hpush.trans (h.refuses s item hs hsilent)
  · exact fun s l s' hs hsilent hstep => h.gone s (.inl l) s' hs hsilent hstep
  · intro s hs hq hclose
    refine h.rest s hs (fun l hl => ?_) hclose
    have := hquiet s (fun l hl => by simpa [Lts.restrict, PollerLabel.noStats] using hq l hl) l hl
    simpa [Lts.restrict, PollerLabel.noStats] using this

variable {M R E : Type}

namespace BufferUnordered

variable {cfg : BufferUnorderedConfig} {s s' : BufferUnordered M R E}

/-- The mids of the messages whose handler panicked. -/
def lostMids (s : BufferUnordered M R E) : List UInt64 := s.lost.filterMap Mark.mid?

theorem answered_sublist (tasks : List (CallTask M R E)) :
    ((tasks.filterMap answer?).map (·.1)).Sublist (tasks.map (·.mid)) := by
  induction tasks with
  | nil => exact .slnil
  | cons t tasks ih =>
    obtain ⟨mid, msg, stage⟩ := t
    cases stage with
    | sent resp => exact ih.cons_cons mid
    | _ => exact ih.cons mid

theorem Kept.once (h : Kept s) (mid : UInt64) : (s.stx.filterMap Event.mid?).count mid
    ≤ (s.accepted.filterMap Request.mid?).count mid := by
  have hanswers := (h.answers.map (·.1)).count_eq mid
  have hcalls := congrArg (fun calls => (calls.map (·.1)).count mid) h.calls
  have hle := (answered_sublist s.tasks).count_le mid
  simp only [List.map_append, List.map_map, List.count_append, Function.comp_def] at hcalls
  rw [mids_answers, accepted, List.filterMap_append, List.count_append, mids_calls]
  omega

theorem closed_step {l : PollerLabel M (Label R E)} (h : s.closed = true)
    (hs : s.step cfg l = some s') : s'.closed = true := by
  cases move hs with
  | take item rx =>
    rcases item with a | ⟨mid, msg, req⟩
    · cases a <;> first | exact h | rfl
    · exact h
  | syncPanic => rfl
  | _ => exact h

theorem answering (M R E : Type) (cfg : BufferUnorderedConfig) :
    Answering (bufferUnorderedPoller M R E cfg) view accepted load Kept (·.closed) where
  toCounted := counted cfg
  once _ h := h.once
  shut_iff s mid msg req := by
    simp [bufferUnorderedPoller, step]
  shut_step _ _ _ h hs := closed_step h hs

theorem replying (hpos : 1 ≤ cfg.maxParallel) (hmax : cfg.maxParallel ≤ 2305843009213693951) :
    Replying (bufferUnorderedPoller M R E cfg) view accepted load (fun _ => true) work
      (fun s => Kept s ∧ Closes cfg s) (·.closed) (fun s => s.pc = .aborted) lostMids where
  toClosable := closable hpos hmax
  once _ h := h.1.once
  shut_iff := (answering M R E cfg).shut_iff
  shut_step := (answering M R E cfg).shut_step
  replies s h hq habort mid := by
    have hq : (bufferUnorderedPoller M R E cfg).Quiet PollerLabel.own s := by
      rintro (item | l) hown
      · cases hown
      · exact hq l rfl
    have hrest := rested_of_quiet hpos h.2.guarded h.2.tracked hq
    have := (((hrest.answered h.2.tracked).all habort).filterMap Mark.mid?).count_eq mid
    rw [List.filterMap_append, List.count_append, ← mids_event_marks, ← mids_marks] at this
    exact Nat.le_of_eq this.symm

end BufferUnordered

namespace SynchronizedItem

variable {ι H : Type} [DecidableEq ι] [Fintype ι] {M R E : ι → Type}
  {f : SynchronizedHandler M R E H} {h₀ : H} {s s' : SynchronizedItem M R E H}

omit [Fintype ι] in
theorem closed_step {l : ItemLabel M} {i : ι} (h : (s.subs i).closed = true)
    (hs : s.step f l = some s') : (s'.subs i).closed = true := by
  have hset : ∀ {j : ι} {c : Subscription (M j) (R j) (E j) H},
      ((s.subs j).closed = true → c.closed = true) → ((s.set j c).subs i).closed = true :=
    fun {j c} hc => forall_set (J := fun j c => (s.subs j).closed = true → c.closed = true)
      (fun _ => id) hc i h
  cases move hs with
  | take j item =>
    refine hset fun h => ?_
    rcases item with a | ⟨mid, msg, req⟩
    · cases a <;> first | exact h | rfl
    · exact h
  | handled j mid msg seen =>
    exact hset fun h => by cases (f.handle j seen msg).2 <;> first | exact h | rfl
  | synced j seen => exact hset fun h => by cases (f.sync j seen).2 <;> first | exact h | rfl
  | _ => exact hset id

omit [Fintype ι] in
theorem answering (f : SynchronizedHandler M R E H) (h₀ : H) (i : ι) :
    Answering (synchronizedPoller f h₀ i) (view i) (fun s => (s.subs i).accepted)
      (fun s => (s.subs i).load) (fun s => ∀ i, (s.subs i).InOrder)
      (fun s => (s.subs i).closed) where
  toCounted := counted f h₀ i
  once s h mid := by
    have hle := (((h i).order.filterMap Mark.mid?).sublist).count_le mid
    show ((s.subs i).stx.filterMap Event.mid?).count mid ≤ _
    rw [Subscription.accepted, List.filterMap_append, List.count_append, mids_marks,
      mids_event_marks]
    omega
  shut_iff s mid msg req := by
    simp [synchronizedPoller, step, Subscription.push]
  shut_step s l s' h hs := by
    cases l with
    | push item => exact closed_step (f := f) (l := .push i item) h hs
    | run l => exact closed_step h (poller_run hs).1

theorem replying (f : SynchronizedHandler M R E H) (h₀ : H) (i : ι) :
    Replying (synchronizedPoller f h₀ i) (view i) (fun s => (s.subs i).accepted)
      (fun s => (s.subs i).load) ItemLabel.own work
      (fun s => (∀ i, (s.subs i).InOrder) ∧ Kept s
        ∧ ∀ i, (s.subs i).pc = .aborted → (s.subs i).closed = true)
      (fun s => (s.subs i).closed) (fun s => (s.subs i).pc = .aborted) (fun _ => []) where
  toClosable := closable f h₀ i
  once s h := (answering f h₀ i).once s h.1
  shut_iff := (answering f h₀ i).shut_iff
  shut_step := (answering f h₀ i).shut_step
  replies s h hq habort mid := by
    have hq : (synchronizedItem f h₀).Quiet ItemLabel.own s := by
      intro l hl
      cases l with
      | push => cases hl
      | _ => exact hq _ hl
    have := ((rested_of_quiet h.2.1 hq i).answered (h.1 i)).all habort
    show _ ≤ ((s.subs i).stx.filterMap Event.mid?).count mid + _
    rw [mids_event_marks, this, ← mids_marks]
    exact Nat.le_add_right _ _

end SynchronizedItem

/-- A message is answered as one of a batch. -/
theorem BatchCore.Conserved.once {c : BatchCore M R E} (hc : c.Conserved) {b : ℕ}
    {batches : List (Batch M)} {buffer : Batch M}
    (hs : Shows b (c.batches ++ batches) buffer c.taken) (mid : UInt64) :
    (c.stx.filterMap Event.mid?).count mid ≤ (c.accepted.filterMap Request.mid?).count mid := by
  have hanswered := hc.answered.count_eq mid
  have hbatches : (c.batches ++ batches).flatMap (fun b => b.mids.map (·.1))
      = (split b (c.taken.filterMap Request.cmd?)).batches.flatten.map (·.1.1) := by
    simp [hs.1, Batch.of, List.flatMap_def, List.map_flatten, Function.comp_def]
  have hcount := congrArg (List.count mid) hbatches
  rw [List.flatMap_append, List.count_append] at hcount
  rw [accepted, List.filterMap_append, List.count_append, mids_accepted, ← flatten_split b,
    List.map_append, List.count_append]
  rw [List.count_append] at hanswered
  omega

namespace BufferUnorderedBatched

variable {cfg : BufferUnorderedBatchedConfig} {s s' : BufferUnorderedBatched M R E}

theorem closed_step {l : PollerLabel M (BufferUnorderedBatchedLabel R E)}
    (h : s.core.closed = true) (hs : s.step cfg l = some s') : s'.core.closed = true := by
  have htask : ∀ {c : BatchCore M R E}, BatchCore.TaskStep s.core c → c.closed = true := by
    intro c hc
    rw [hc.frame.closed]
    exact h
  cases move hs with
  | take item rx =>
    rcases item with a | ⟨mid, msg, req⟩
    · cases a with
      | flush =>
        simp only [body]
        split_ifs <;> exact h
      | close => rfl
      | _ => exact h
    · exact h
  | start i c hc => exact htask (.start hc)
  | finish i resp c hc => exact htask (.finish hc)
  | send i c hc => exact htask (.send hc)
  | _ => exact h

theorem answering (M R E : Type) (cfg : BufferUnorderedBatchedConfig) :
    Answering (bufferUnorderedBatchPoller M R E cfg) view (fun s => s.core.accepted) load
      (fun s => s.core.Within s.pc.held ∧ Splits cfg s ∧ s.core.Conserved)
      (fun s => s.core.closed) where
  toCounted := (counted cfg).returning.and ⟨splits_start, BatchCore.Conserved.start⟩
    fun _ _ _ _ h hs => ⟨splits_step h.1 hs, conserved_step h.2 hs⟩
  once s h mid := by
    obtain ⟨-, hsplit, hc⟩ := h
    unfold Splits shown at hsplit
    split at hsplit
    · exact hc.once hsplit mid
    · exact hc.once hsplit mid
    · rw [← List.append_nil s.core.batches] at hsplit
      exact hc.once hsplit mid
  shut_iff s mid msg req := by
    simp [bufferUnorderedBatchPoller, step, BatchCore.push]
  shut_step _ _ _ h hs := closed_step h hs

theorem replying (hpos : 1 ≤ cfg.maxParallel) (hcfg : cfg.Starts) :
    Replying ((bufferUnorderedBatchPoller M R E cfg).restrict PollerLabel.noStats) view
      (fun s => s.core.accepted) load (fun _ => true) work
      (fun s => (s.core.Within s.pc.held ∧ (Guarded cfg s ∧ Splits cfg s) ∧ Tracked s ∧ Alive s)
        ∧ s.core.Conserved)
      (fun s => s.core.closed) (fun s => s.pc = .aborted)
      (fun s => s.core.bufferMid.map (·.1)) where
  toClosable := by
    refine ((closable hpos hcfg).returning fun s hq l _ => ?_).and BatchCore.Conserved.start
      fun s l s' _ h hs => conserved_step h (Lts.restrict_step.1 hs).2
    refine quiet_withPanics (s := s) ?_ (.run l) rfl
    rintro (item | l) hown
    · cases hown
    · exact hq l rfl
  once s h := (answering M R E cfg).once s ⟨h.1.1, h.1.2.1.2, h.2⟩
  shut_iff := (answering M R E cfg).shut_iff
  shut_step s l s' h hs := closed_step h (Lts.restrict_step.1 hs).2
  replies s h hq habort mid := by
    have hq : (bufferUnorderedBatchPoller M R E cfg).Quiet PollerLabel.own s := by
      rintro (item | l) hown
      · cases hown
      · simpa [Lts.restrict, PollerLabel.noStats] using hq l rfl
    have hrest := rested_of_quiet hpos h.1.2.1.1 h.1.2.2.1 (quiet_withPanics hq)
    have hrx : s.core.rx = [] := (hrest.loop.resolve_right habort).1
    have := (hrest.answered h.1.2.1.2 h.2).responses.count_eq mid
    rw [List.count_append, ← BatchCore.accepted_of_drained hrx] at this
    exact Nat.le_of_eq this.symm

end BufferUnorderedBatched

namespace SynchronizedBatched

variable {cfg : SynchronizedBatchedConfig} {s s' : SynchronizedBatched M R E}

theorem closed_step {l : PollerLabel M (SynchronizedBatchedLabel R E)}
    (h : s.core.closed = true) (hs : s.step cfg l = some s') : s'.core.closed = true := by
  have htask : ∀ {c : BatchCore M R E}, BatchCore.TaskStep s.core c → c.closed = true := by
    intro c hc
    rw [hc.frame.closed]
    exact h
  cases move hs with
  | take item rx =>
    rcases item with a | ⟨mid, msg, req⟩
    · cases a with
      | flush =>
        simp only [body]
        split_ifs <;> exact h
      | close => rfl
      | _ => exact h
    · simp only [body]
      split_ifs <;> exact h
  | start i c _ hc => exact htask (.start hc)
  | finish i resp c _ hc => exact htask (.finish hc)
  | send i c hc => exact htask (.send hc)
  | _ => exact h

theorem answering (M R E : Type) (cfg : SynchronizedBatchedConfig) :
    Answering (batchSynchronizedPoller M R E cfg) view (fun s => s.core.accepted)
      (fun s => s.core.load)
      (fun s => s.core.Within 0 ∧ Splits cfg s ∧ s.core.Conserved)
      (fun s => s.core.closed) where
  toCounted := (counted cfg).returning.and ⟨Shows.nil, BatchCore.Conserved.start⟩
    fun _ _ _ _ h hs => ⟨splits_step h.1 hs, conserved_step h.2 hs⟩
  once s h mid := by
    obtain ⟨-, hsplit, hc⟩ := h
    unfold Splits at hsplit
    rw [← List.append_nil s.core.batches] at hsplit
    exact hc.once hsplit mid
  shut_iff s mid msg req := by
    simp [batchSynchronizedPoller, step, BatchCore.push]
  shut_step _ _ _ h hs := closed_step h hs

theorem replying (hcfg : cfg.Starts) :
    Replying ((batchSynchronizedPoller M R E cfg).restrict PollerLabel.noStats) view
      (fun s => s.core.accepted) (fun s => s.core.load) (fun l => runOwn (.inl l)) work
      (fun s => (s.core.Within 0 ∧ Kept cfg s ∧ Alive s) ∧ s.core.Conserved)
      (fun s => s.core.closed) (fun s => s.pc = .aborted)
      (fun s => s.core.bufferMid.map (·.1)) where
  toClosable := by
    refine ((closable hcfg).returning fun s hq l hl => ?_).and BatchCore.Conserved.start
      fun s l s' _ h hs => conserved_step h (Lts.restrict_step.1 hs).2
    refine quiet_withPanics (s := s) ?_ (.run l) ?_
    · rintro (item | l) hown
      · cases hown
      · refine hq l ?_
        cases l <;> first | rfl | cases hown
    · rcases l with l | p
      · cases l <;> first | rfl | cases hl
      · rfl
  once s h := (answering M R E cfg).once s ⟨h.1.1, h.1.2.1.splits, h.2⟩
  shut_iff := (answering M R E cfg).shut_iff
  shut_step s l s' h hs := closed_step h (Lts.restrict_step.1 hs).2
  replies s h hq habort mid := by
    have hq : (batchSynchronizedPoller M R E cfg).Quiet ownReturning s := by
      rintro (item | l) hown
      · cases hown
      · have hl : runOwn (.inl l : SynchronizedBatchedLabel R E ⊕ Panic) = true := by
          cases l <;> first | rfl | cases hown
        simpa [Lts.restrict, PollerLabel.noStats] using hq l hl
    have hk := h.1.2.1
    have hrest := rested_of_quiet hk.queued hk.tracked (quiet_withPanics hq)
    have hrx : s.core.rx = [] := (hrest.loop.resolve_right habort).1
    have := (h.2.answeredButBuffered hk.splits hrest.tasks).responses.count_eq mid
    rw [List.count_append, ← BatchCore.accepted_of_drained hrx] at this
    exact Nat.le_of_eq this.symm

end SynchronizedBatched

end Pollers

/-- The receiver around each of the four pollers does nothing that `localReceiver` does not allow,
the batched ones with handlers that return. -/
theorem receivers_refine_local {ι B H M R E : Type} [DecidableEq ι] [StdSyncSendError E]
    {Mi Ri Ei : ι → Type} [∀ i, StdSyncSendError (Ei i)] (limit : UInt64) (intoBoxed : R → B) :
    (∀ cfg, RefinesLocal intoBoxed limit (bufferUnorderedPoller M R E cfg) BufferUnordered.view
        BufferUnordered.accepted (·.closed))
    ∧ (∀ (f : SynchronizedHandler Mi Ri Ei H) (h₀ : H) (i : ι) (g : Ri i → B),
      RefinesLocal g limit (synchronizedPoller f h₀ i) (SynchronizedItem.view i)
        (fun s => (s.subs i).accepted) (fun s => (s.subs i).closed))
    ∧ (∀ cfg, RefinesLocal intoBoxed limit (bufferUnorderedBatchPoller M R E cfg)
        BufferUnorderedBatched.view (fun s => s.core.accepted) (fun s => s.core.closed))
    ∧ ∀ cfg, RefinesLocal intoBoxed limit (batchSynchronizedPoller M R E cfg)
        SynchronizedBatched.view (fun s => s.core.accepted) (fun s => s.core.closed) :=
  ⟨fun cfg => (BufferUnordered.answering M R E cfg).refinesLocal intoBoxed limit,
    fun f h₀ i g => (SynchronizedItem.answering f h₀ i).refinesLocal g limit,
    fun cfg => (BufferUnorderedBatched.answering M R E cfg).refinesLocal intoBoxed limit,
    fun cfg => (SynchronizedBatched.answering M R E cfg).refinesLocal intoBoxed limit⟩

/-- Requests come back, at the four kinds of local receiver, whatever else is sent and in whichever
order the steps come, but those whose handler panicked and those in a batch that is not full. A
`BufferUnordered` receiver must have a permit to give and no more than a semaphore may have; the
batched ones must get to their loop, have handlers that return and are not sent a `Stats`. -/
theorem requests_come_back {ι B H M R E : Type} [DecidableEq ι] [Fintype ι] [StdSyncSendError E]
    {Mi Ri Ei : ι → Type} [∀ i, StdSyncSendError (Ei i)] (limit : UInt64) (intoBoxed : R → B) :
    (∀ cfg, 1 ≤ cfg.maxParallel → cfg.maxParallel ≤ 2305843009213693951 →
      RequestsComeBack intoBoxed limit (bufferUnorderedPoller M R E cfg) BufferUnordered.view
        (fun _ => true) BufferUnordered.work (fun s => s.pc = .aborted) BufferUnordered.lostMids)
    ∧ (∀ (f : SynchronizedHandler Mi Ri Ei H) (h₀ : H) (i : ι) (g : Ri i → B),
      RequestsComeBack g limit (synchronizedPoller f h₀ i) (SynchronizedItem.view i)
        ItemLabel.own SynchronizedItem.work (fun s => (s.subs i).pc = .aborted) (fun _ => []))
    ∧ (∀ cfg, 1 ≤ cfg.maxParallel → cfg.Starts →
      RequestsComeBack intoBoxed limit
        ((bufferUnorderedBatchPoller M R E cfg).restrict PollerLabel.noStats)
        BufferUnorderedBatched.view (fun _ => true) BufferUnorderedBatched.work
        (fun s => s.pc = .aborted) (fun s => s.core.bufferMid.map (·.1)))
    ∧ ∀ cfg, cfg.Starts → RequestsComeBack intoBoxed limit
        ((batchSynchronizedPoller M R E cfg).restrict PollerLabel.noStats)
        SynchronizedBatched.view (fun l => SynchronizedBatched.runOwn (.inl l))
        SynchronizedBatched.work (fun s => s.pc = .aborted)
        (fun s => s.core.bufferMid.map (·.1)) :=
  ⟨fun _ hpos hmax => (BufferUnordered.replying hpos hmax).requestsComeBack intoBoxed limit,
    fun f h₀ i g => (SynchronizedItem.replying f h₀ i).requestsComeBack g limit,
    fun _ hpos hcfg => (BufferUnorderedBatched.replying hpos hcfg).requestsComeBack intoBoxed limit,
    fun _ hcfg => (SynchronizedBatched.replying hcfg).requestsComeBack intoBoxed limit⟩

/-- A request, asked while another message is being handled, has its reply; the other one is a plain
message. -/
theorem request_comes_back :
    (∃ s, (requestedReceiver (id : Unit → Unit) 2
        (bufferUnorderedPoller Unit Unit GenericError ⟨1⟩) BufferUnordered.view).run
      [.fetchId, .push 1 () false, .serve (.run .recv), .serve (.run .acquire),
        .request .withErrorType 5, .pushRequest 0 (), .serve (.run (.start 0)),
        .serve (.run (.finish 0 (.ok ()))), .serve (.run .recv), .serve (.run .acquire),
        .serve (.run (.start 1)), .serve (.run (.finish 1 (.ok ()))), .serve (.run (.send 1)),
        .serve .turn] = some s
      ∧ s.served.chans 0 = .sent (.withErrorType (.ok ())) ∧ s.served.poller.stx.length = 1)
    ∧ RequestsComeBack (id : Unit → Unit) 2 (bufferUnorderedPoller Unit Unit GenericError ⟨1⟩)
      BufferUnordered.view (fun _ => true) BufferUnordered.work (fun s => s.pc = .aborted)
      BufferUnordered.lostMids :=
  ⟨⟨_, rfl, rfl, rfl⟩, (@requests_come_back Unit Unit Unit Unit Unit GenericError _ _ _
    (fun _ => Unit) (fun _ => Unit) (fun _ => GenericError) _ 2 id).1 ⟨1⟩ (by decide) (by decide)⟩

end MessageBus
