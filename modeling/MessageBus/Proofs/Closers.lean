import MessageBus.Closers
import MessageBus.Proofs.BatchSettling

/-!
# Nobody is left behind by a close

A poller that has accepted a `Close` comes to its end by itself (`Closable`), the event loop sees
the end of its stream and notifies, and whoever has pushed a `Close` by then has its `Notified`
already: so a receiver with callers of its `close`, left alone, stops with all the calls over, and
a call that has returned has found the loop at the end of its stream (`ClosersInv`).
-/

namespace MessageBus

section Served

variable {M R E B σ ℓ : Type} [StdSyncSendError E]

/-- A poller that, left alone, stops, gone by then where it has accepted a `Close`; and once it is
gone nothing more comes from it or goes to it. -/
structure Closable (P : Lts σ (PollerLabel M ℓ)) (V : PollerView σ R E)
    (accepted : σ → List (Request M)) (load : σ → ℕ) (own : ℓ → Bool) (work : σ → ℕ)
    (Inv : σ → Prop) : Prop extends Counted P V accepted load Inv where
  close : ∀ s s', P.step s (.push (.action .close)) = some s' → work s' = work s + 1
  emits : ∀ s l s', Inv s → P.step s (.run l) = some s' →
    (V.stx s').length ≤ (V.stx s).length + 1
  less : ∀ s l s', Inv s → own l = true → P.step s (.run l) = some s' → work s' < work s
  refuses : ∀ s item, Inv s → V.silent s = true → P.step s (.push item) = none
  gone : ∀ s l s', Inv s → V.silent s = true → P.step s (.run l) = some s' →
    V.silent s' = true ∧ V.stx s' = V.stx s
  rest : ∀ s, Inv s → (∀ l, own l = true → P.step s (.run l) = none) →
    Request.action .close ∈ accepted s → V.silent s = true

/-- The steps a receiver takes by itself. -/
def ServedLabel.own (own : ℓ → Bool) : ServedLabel M ℓ → Bool
  | .run l => own l
  | .turn | .endStream => true
  | _ => false

/-- The steps of the receiver, for each of the poller's one for the event it may send. -/
def ServedState.work (V : PollerView σ R E) (work : σ → ℕ) (s : ServedState σ R E B) : ℕ :=
  2 * work s.poller + ((V.stx s.poller).length - s.heard) + if s.loop = .running then 1 else 0

/-- The loop is within its stream, and at the end of it once it has ended. -/
structure ServedInv (V : PollerView σ R E) (Inv : σ → Prop) (s : ServedState σ R E B) : Prop where
  poller : Inv s.poller
  heard : s.heard ≤ (V.stx s.poller).length
  ended : s.loop = .ended → s.heard = (V.stx s.poller).length ∧ V.silent s.poller = true

variable {intoBoxed : R → B} {limit : UInt64} {P : Lts σ (PollerLabel M ℓ)} {V : PollerView σ R E}
  {accepted : σ → List (Request M)} {load work : σ → ℕ} {own : ℓ → Bool} {Inv : σ → Prop}
  {s s' : ServedState σ R E B} {l : ServedLabel M ℓ}

/-- A `Response` or another event of a poller does not end the loop. -/
theorem plain_handleEvent (intoBoxed : R → B) (w : ReceiverWrapper) (chans : Channels R E B)
    {ev : Event R E} (h : ev.Plain) : (handleEvent intoBoxed w chans ev).loop ≠ .ended
      ∧ .closed ∉ (handleEvent intoBoxed w chans ev).wakes := by
  cases ev with
  | response mid res =>
    simp only [handleEvent, response]
    split
    · split <;> split_ifs <;> simp
    · split_ifs <;> simp
  | ready | flushed | synchronized | error => simp [handleEvent]
  | _ => rcases h with h | h <;> cases h

theorem servedInv_step (hP : Closable P V accepted load own work Inv) (h : ServedInv V Inv s)
    (hs : s.step intoBoxed P V l = some s') : ServedInv V Inv s' := by
  cases l with
  | push item =>
    obtain ⟨p, hp, rfl⟩ := Option.map_eq_some_iff.1 hs
    have hstx := (hP.push _ _ _ hp).2
    refine ⟨hP.step _ _ _ h.poller hp, ?_, fun hloop => ?_⟩
    · rw [hstx]
      exact h.heard
    · have := hP.refuses _ item h.poller (h.ended hloop).2
      rw [hp] at this
      cases this
  | run m =>
    obtain ⟨p, hp, rfl⟩ := Option.map_eq_some_iff.1 hs
    refine ⟨hP.step _ _ _ h.poller hp, ?_, fun hloop => ?_⟩
    · exact Nat.le_trans h.heard (hP.run _ _ _ hp).2.length_le
    · obtain ⟨hheard, hsilent⟩ := h.ended hloop
      obtain ⟨hsilent, hstx⟩ := hP.gone _ _ _ h.poller hsilent hp
      exact ⟨by rw [hstx]; exact hheard, hsilent⟩
  | turn =>
    simp only [ServedState.step] at hs
    split_ifs at hs
    obtain ⟨ev, hev, rfl⟩ := Option.map_eq_some_iff.1 hs
    have hlt := (List.getElem?_eq_some_iff.1 hev).1
    exact ⟨h.poller, hlt, fun hloop =>
      absurd hloop (plain_handleEvent _ _ _ (hP.quiet _ h.poller _ (List.mem_of_getElem? hev))).1⟩
  | endStream =>
    simp only [ServedState.step] at hs
    split_ifs at hs with hend
    cases hs
    exact ⟨h.poller, h.heard, fun _ => ⟨hend.2.1, hend.2.2⟩⟩
  | listen key w =>
    obtain ⟨waiters, -, rfl⟩ := Option.map_eq_some_iff.1 hs
    exact ⟨h.poller, h.heard, h.ended⟩
  | hangUp tx =>
    cases hs
    exact ⟨h.poller, h.heard, h.ended⟩

/-- Every step of its own takes from the receiver's work. -/
theorem served_work (hP : Closable P V accepted load own work Inv) (h : ServedInv V Inv s)
    (hl : l.own own = true) (hs : s.step intoBoxed P V l = some s') :
    s'.work V work < s.work V work := by
  have hheard := h.heard
  cases l with
  | run m =>
    obtain ⟨p, hp, rfl⟩ := Option.map_eq_some_iff.1 hs
    have hless := hP.less _ _ _ h.poller hl hp
    have hemits := hP.emits _ _ _ h.poller hp
    simp only [ServedState.work]
    omega
  | turn =>
    simp only [ServedState.step] at hs
    split_ifs at hs with hloop
    obtain ⟨ev, hev, rfl⟩ := Option.map_eq_some_iff.1 hs
    have hlt := (List.getElem?_eq_some_iff.1 hev).1
    simp only [ServedState.work, hloop, if_true]
    split_ifs <;> omega
  | endStream =>
    simp only [ServedState.step] at hs
    split_ifs at hs with hend
    cases hs
    simp only [ServedState.work, hend.1, if_true, reduceCtorEq, if_false]
    omega
  | _ => cases hl

/-- At rest a receiver's poller is at rest, and its stream is handled to the end unless the loop has
panicked. -/
theorem heard_of_quiet (h : ServedInv V Inv s)
    (hq : ∀ l : ServedLabel M ℓ, l.own own = true → s.step intoBoxed P V l = none) :
    (∀ m, own m = true → P.step s.poller (.run m) = none)
      ∧ (s.loop ≠ .aborted → s.heard = (V.stx s.poller).length) := by
  refine ⟨fun m hm => ?_, fun hloop => ?_⟩
  · have := hq (.run m) hm
    simpa [ServedState.step] using this
  · rcases hl : s.loop with _ | _ | _
    · have := hq .turn rfl
      simp only [ServedState.step, hl, if_true, Option.map_eq_none_iff,
        List.getElem?_eq_none_iff] at this
      have := h.heard
      omega
    · exact (h.ended hl).1
    · exact absurd hl hloop

/-- A receiver at rest whose loop still runs waits for a poller that is not gone. -/
theorem served_rest (hP : Closable P V accepted load own work Inv) (h : ServedInv V Inv s)
    (hq : ∀ l : ServedLabel M ℓ, l.own own = true → s.step intoBoxed P V l = none)
    (hloop : s.loop = .running) : Request.action .close ∉ accepted s.poller := by
  intro hclose
  obtain ⟨hpoller, hheard⟩ := heard_of_quiet h hq
  have hheard := hheard (by rw [hloop]; rintro ⟨⟩)
  have hsilent := hP.rest _ h.poller hpoller hclose
  have := hq .endStream rfl
  simp [ServedState.step, hloop, hheard, hsilent] at this

/-- The step notifies `closed` exactly where it ends the loop. -/
theorem ringsClosed_iff (hP : Closable P V accepted load own work Inv) (h : ServedInv V Inv s)
    (hs : s.step intoBoxed P V l = some s') :
    if s.ringsClosed intoBoxed V l then s'.loop = .ended
      else s'.loop = .ended ↔ s.loop = .ended := by
  cases l with
  | push item =>
    obtain ⟨p, -, rfl⟩ := Option.map_eq_some_iff.1 hs
    rfl
  | run m =>
    obtain ⟨p, -, rfl⟩ := Option.map_eq_some_iff.1 hs
    rfl
  | turn =>
    simp only [ServedState.step] at hs
    split_ifs at hs with hloop
    obtain ⟨ev, hev, rfl⟩ := Option.map_eq_some_iff.1 hs
    obtain ⟨hended, hclosed⟩ := plain_handleEvent intoBoxed s.wrapper s.chans
      (hP.quiet _ h.poller _ (List.mem_of_getElem? hev))
    simp [ServedState.ringsClosed, hev, hclosed, hended, hloop]
  | endStream =>
    simp only [ServedState.step] at hs
    split_ifs at hs
    cases hs
    rfl
  | listen key w =>
    obtain ⟨waiters, -, rfl⟩ := Option.map_eq_some_iff.1 hs
    rfl
  | hangUp tx =>
    cases hs
    rfl

end Served

section Closers

variable {M R E B σ ℓ : Type} [StdSyncSendError E]

namespace CloseStage

/-- Past the push of `Close` and not over. -/
def waits : CloseStage → Bool
  | pushed | parked => true
  | _ => false

/-- The steps a call has still to take, those for its `Close` with them. -/
def work : CloseStage → ℕ
  | created => 5
  | pushed => 2
  | parked => 1
  | _ => 0

end CloseStage

/-- A call that waits has pushed its `Close`, and is notified exactly if the loop has ended since;
one that has returned was. -/
structure CloseCall.Sound (accepted : σ → List (Request M)) (s : ServedState σ R E B)
    (c : CloseCall) : Prop where
  asked : c.stage.waits = true → Request.action .close ∈ accepted s.poller
  told : c.stage.waits = true → s.loop = .ended → c.notified = true
  ended : c.notified = true → s.loop = .ended
  returned : c.stage = .returned → c.notified = true

/-- What a receiver and the callers of its `close` keep. -/
structure ClosersInv (V : PollerView σ R E) (accepted : σ → List (Request M)) (Inv : σ → Prop)
    (s : ClosersState σ R E B) : Prop where
  served : ServedInv V Inv s.served
  calls : ∀ c ∈ s.calls, c.Sound accepted s.served

def ClosersState.work (V : PollerView σ R E) (work : σ → ℕ) (s : ClosersState σ R E B) : ℕ :=
  s.served.work V work + (s.calls.map fun c => c.stage.work).sum

/-- The steps the receiver and the calls take by themselves. -/
def ClosersLabel.own (own : ℓ → Bool) : ClosersLabel M ℓ → Bool
  | .push _ | .poll _ | .resume _ => true
  | .serve l => l.own own
  | .start | .timeout _ => false

variable {intoBoxed : R → B} {limit : UInt64} {P : Lts σ (PollerLabel M ℓ)} {V : PollerView σ R E}
  {accepted : σ → List (Request M)} {load work : σ → ℕ} {own : ℓ → Bool} {Inv : σ → Prop}
  {s s' : ClosersState σ R E B} {l : ClosersLabel M ℓ}

/-- Everything a step can do. -/
inductive ClosersState.Move (intoBoxed : R → B) (P : Lts σ (PollerLabel M ℓ))
    (V : PollerView σ R E) (s : ClosersState σ R E B) :
    ClosersLabel M ℓ → ClosersState σ R E B → Prop
  | start : Move intoBoxed P V s .start { s with calls := s.calls ++ [⟨.created, false⟩] }
  | push (i : ℕ) (n : Bool) (t : ServedState σ R E B) : s.calls[i]? = some ⟨.created, n⟩ →
      s.served.step intoBoxed P V (.push (.action .close)) = some t →
      Move intoBoxed P V s (.push i) { s.set i ⟨.pushed, n⟩ with served := t }
  | refuse (i : ℕ) (n : Bool) : s.calls[i]? = some ⟨.created, n⟩ →
      Move intoBoxed P V s (.push i) (s.set i ⟨.refused, n⟩)
  | poll (i : ℕ) (n : Bool) : s.calls[i]? = some ⟨.pushed, n⟩ →
      Move intoBoxed P V s (.poll i) (s.set i ⟨if n then .returned else .parked, n⟩)
  | resume (i : ℕ) : s.calls[i]? = some ⟨.parked, true⟩ →
      Move intoBoxed P V s (.resume i) (s.set i ⟨.returned, true⟩)
  | timeout (i : ℕ) (stage : CloseStage) (n : Bool) : s.calls[i]? = some ⟨stage, n⟩ →
      stage.waits = true → Move intoBoxed P V s (.timeout i) (s.set i ⟨.timedOut, n⟩)
  | serve (l : ServedLabel M ℓ) (t : ServedState σ R E B) :
      s.served.step intoBoxed P V l = some t → s.served.ringsClosed intoBoxed V l = false →
      Move intoBoxed P V s (.serve l) { s with served := t }
  | ring (l : ServedLabel M ℓ) (t : ServedState σ R E B) :
      s.served.step intoBoxed P V l = some t → s.served.ringsClosed intoBoxed V l = true →
      Move intoBoxed P V s (.serve l) { s with served := t, calls := s.calls.map CloseCall.notify }

theorem ClosersState.move (hs : s.step intoBoxed P V l = some s') :
    s.Move intoBoxed P V l s' := by
  cases l with
  | start =>
    cases hs
    exact .start
  | push i =>
    simp only [step] at hs
    split at hs
    · split at hs
      · cases hs
        exact .push i _ _ ‹_› ‹_›
      · cases hs
        exact .refuse i _ ‹_›
    · cases hs
  | poll i =>
    simp only [step] at hs
    split at hs
    · cases hs
      exact .poll i _ ‹_›
    · cases hs
  | resume i =>
    simp only [step] at hs
    split at hs
    · cases hs
      exact .resume i ‹_›
    · cases hs
  | timeout i =>
    simp only [step] at hs
    split at hs
    · cases hs
      exact .timeout i _ _ ‹_› rfl
    · cases hs
      exact .timeout i _ _ ‹_› rfl
    · cases hs
  | serve l =>
    obtain ⟨t, ht, rfl⟩ := Option.map_eq_some_iff.1 hs
    split_ifs with hring
    · exact .ring l t ht hring
    · exact .serve l t ht (by simpa using hring)

omit [StdSyncSendError E] in
/-- What a call relies on stays as the receiver takes in more. -/
theorem CloseCall.Sound.serve {t t' : ServedState σ R E B} {c : CloseCall}
    (h : c.Sound accepted t) (hacc : accepted t.poller <+: accepted t'.poller)
    (hloop : t'.loop = .ended ↔ t.loop = .ended) : c.Sound accepted t' where
  asked hw := hacc.subset (h.asked hw)
  told hw hl := h.told hw (hloop.1 hl)
  ended hn := hloop.2 (h.ended hn)
  returned := h.returned

omit [StdSyncSendError E] in
/-- A call that was there when the loop ended is notified. -/
theorem CloseCall.Sound.ring {t t' : ServedState σ R E B} {c : CloseCall}
    (h : c.Sound accepted t) (hacc : accepted t.poller <+: accepted t'.poller)
    (hloop : t'.loop = .ended) : c.notify.Sound accepted t' := by
  obtain ⟨stage, n⟩ := c
  unfold CloseCall.notify
  split_ifs with hover
  · have hwaits : stage.waits = false := by
      have hover : stage.over = true := hover
      cases stage <;> first | rfl | cases hover
    refine ⟨fun hw => hacc.subset (h.asked hw), fun hw => ?_, fun _ => hloop, h.returned⟩
    rw [show stage.waits = true from hw] at hwaits
    cases hwaits
  · exact ⟨fun hw => hacc.subset (h.asked hw), fun _ _ => rfl, fun _ => hloop, fun _ => rfl⟩

/-- What a step accepts only adds to what was accepted. -/
theorem accepted_serve {t t' : ServedState σ R E B} {l : ServedLabel M ℓ}
    (hP : Closable P V accepted load own work Inv) (hs : t.step intoBoxed P V l = some t') :
    accepted t.poller <+: accepted t'.poller := by
  rcases serve_cases hs with ⟨item, -, hp, -⟩ | ⟨m, -, hp, -⟩ | ⟨ev, -, -, hp, -⟩ | ⟨-, -, hp, -⟩
  · rw [(hP.push _ _ _ hp).1]
    exact List.prefix_append _ _
  · rw [(hP.run _ _ _ hp).1]
  · rw [hp]
  · rw [hp]

theorem closersInv_step (hP : Closable P V accepted load own work Inv)
    (h : ClosersInv V accepted Inv s)
    (hs : s.step intoBoxed P V l = some s') : ClosersInv V accepted Inv s' := by
  have hcall : ∀ {i : ℕ} {c : CloseCall}, s.calls[i]? = some c → c.Sound accepted s.served :=
    fun hi => h.calls _ (List.mem_of_getElem? hi)
  cases ClosersState.move hs with
  | start =>
    refine ⟨h.served, ?_⟩
    rw [List.forall_mem_append, List.forall_mem_singleton]
    exact ⟨h.calls, by rintro ⟨⟩, by rintro ⟨⟩, by rintro ⟨⟩, by rintro ⟨⟩⟩
  | push i n t hi ht =>
    have hserved := servedInv_step hP h.served ht
    have hacc := accepted_serve hP ht
    have hloop := ringsClosed_iff hP h.served ht
    obtain ⟨p, hp, rfl⟩ := Option.map_eq_some_iff.1 ht
    refine ⟨hserved, fun c hc => ?_⟩
    rcases List.mem_or_eq_of_mem_set hc with hc | rfl
    · exact (h.calls c hc).serve hacc hloop
    · have hmem : Request.action .close ∈ accepted p := by
        rw [(hP.push _ _ _ hp).1]
        exact List.mem_append_right _ (List.mem_singleton_self _)
      refine ⟨fun _ => hmem, fun _ hended => ?_, (hcall hi).ended, by rintro ⟨⟩⟩
      -- A queue that takes a `Close` has not lost its poller.
      have := hP.refuses _ (.action .close) h.served.poller (h.served.ended hended).2
      rw [hp] at this
      cases this
  | refuse i n hi =>
    exact ⟨h.served, Pool.forall_mem_set h.calls i ⟨by rintro ⟨⟩, by rintro ⟨⟩, (hcall hi).ended,
      by rintro ⟨⟩⟩⟩
  | poll i n hi =>
    refine ⟨h.served, Pool.forall_mem_set h.calls i ?_⟩
    cases n with
    | false =>
      exact ⟨fun _ => (hcall hi).asked rfl, fun _ => (hcall hi).told rfl, by rintro ⟨⟩,
        by rintro ⟨⟩⟩
    | true => exact ⟨by rintro ⟨⟩, by rintro ⟨⟩, (hcall hi).ended, fun _ => rfl⟩
  | resume i hi =>
    exact ⟨h.served, Pool.forall_mem_set h.calls i ⟨by rintro ⟨⟩, by rintro ⟨⟩, (hcall hi).ended,
      fun _ => rfl⟩⟩
  | timeout i stage n hi =>
    exact ⟨h.served, Pool.forall_mem_set h.calls i ⟨by rintro ⟨⟩, by rintro ⟨⟩, (hcall hi).ended,
      by rintro ⟨⟩⟩⟩
  | serve l t ht hring =>
    have hloop := ringsClosed_iff hP h.served ht
    simp only [hring, Bool.false_eq_true, if_false] at hloop
    exact ⟨servedInv_step hP h.served ht,
      fun c hc => (h.calls c hc).serve (accepted_serve hP ht) hloop⟩
  | ring l t ht hring =>
    have hloop := ringsClosed_iff hP h.served ht
    simp only [hring, if_true] at hloop
    refine ⟨servedInv_step hP h.served ht, fun c hc => ?_⟩
    obtain ⟨c₀, hc₀, rfl⟩ := List.mem_map.1 hc
    exact (h.calls c₀ hc₀).ring (accepted_serve hP ht) hloop

theorem sum_notify (calls : List CloseCall) :
    ((calls.map CloseCall.notify).map fun c => c.stage.work).sum
      = (calls.map fun c => c.stage.work).sum := by
  rw [List.map_map]
  congr 1
  refine List.map_congr_left fun c _ => ?_
  simp only [Function.comp_apply, CloseCall.notify]
  split_ifs <;> rfl

/-- Every step of its own takes from the work. -/
theorem closers_work (hP : Closable P V accepted load own work Inv)
    (h : ClosersInv V accepted Inv s)
    (hl : l.own own = true) (hs : s.step intoBoxed P V l = some s') :
    s'.work V work < s.work V work := by
  have hset : ∀ {i : ℕ} {c : CloseCall} (c' : CloseCall), s.calls[i]? = some c →
      ((s.calls.set i c').map fun c => c.stage.work).sum + c.stage.work
        = (s.calls.map fun c => c.stage.work).sum + c'.stage.work := fun c' hi =>
    Pool.sum_map_set_add (fun c : CloseCall => c.stage.work) c' hi
  cases ClosersState.move hs with
  | start => cases hl
  | timeout i stage n hi => cases hl
  | push i n t hi ht =>
    have hcalls := hset ⟨.pushed, n⟩ hi
    obtain ⟨p, hp, rfl⟩ := Option.map_eq_some_iff.1 ht
    have hwork := hP.close _ _ hp
    have hstx := (hP.push _ _ _ hp).2
    simp only [ClosersState.work, ClosersState.set, ServedState.work, hwork, hstx,
      CloseStage.work] at hcalls ⊢
    omega
  | refuse i n hi =>
    have hcalls := hset ⟨.refused, n⟩ hi
    simp only [ClosersState.work, ClosersState.set, CloseStage.work] at hcalls ⊢
    omega
  | poll i n hi =>
    have hcalls := hset ⟨if n then .returned else .parked, n⟩ hi
    cases n <;> simp only [ClosersState.work, ClosersState.set, CloseStage.work, Bool.false_eq_true,
      if_true, if_false] at hcalls ⊢ <;> omega
  | resume i hi =>
    have hcalls := hset ⟨.returned, true⟩ hi
    simp only [ClosersState.work, ClosersState.set, CloseStage.work] at hcalls ⊢
    omega
  | serve l t ht =>
    have := served_work hP h.served hl ht
    simp only [ClosersState.work]
    omega
  | ring l t ht =>
    have := served_work hP h.served hl ht
    simp only [ClosersState.work, sum_notify]
    omega

/-- The loop has not panicked, so no call is left behind. -/
theorem closers_rest (hP : Closable P V accepted load own work Inv)
    (h : ClosersInv V accepted Inv s)
    (hq : (servedClosers intoBoxed limit P V).Quiet (ClosersLabel.own own) s)
    (hloop : s.served.loop ≠ .aborted) : ∀ c ∈ s.calls, c.stage.over = true := by
  have hno : ∀ l : ClosersLabel M ℓ, l.own own = true → s.step intoBoxed P V l = none := hq
  intro c hc
  obtain ⟨i, hi⟩ := List.getElem?_of_mem hc
  obtain ⟨stage, n⟩ := c
  have hparked : stage = .parked → n = false ∧ s.served.loop = .running := by
    rintro rfl
    have hn : n = false := by
      cases n with
      | false => rfl
      | true =>
        have := hno (.resume i) rfl
        simp [ClosersState.step, hi] at this
    refine ⟨hn, ?_⟩
    cases hl : s.served.loop with
    | running => rfl
    | ended =>
      have := (h.calls _ hc).told rfl hl
      rw [hn] at this
      cases this
    | aborted => exact absurd hl hloop
  cases stage with
  | created =>
    have := hno (.push i) rfl
    simp only [ClosersState.step, hi] at this
    split at this <;> cases this
  | pushed =>
    have := hno (.poll i) rfl
    simp [ClosersState.step, hi] at this
  | parked =>
    have hserve : ∀ l : ServedLabel M ℓ, l.own own = true →
        s.served.step intoBoxed P V l = none := by
      intro l hl
      have := hno (.serve l) hl
      simpa [ClosersState.step] using this
    exact absurd ((h.calls _ hc).asked rfl) (served_rest hP h.served hserve (hparked rfl).2)
  | _ => rfl

theorem closersInv_of_reachable (hP : Closable P V accepted load own work Inv)
    (h : (servedClosers intoBoxed limit P V).Reachable s) : ClosersInv V accepted Inv s := by
  refine Lts.invariant ⟨⟨hP.start, Nat.zero_le _, by rintro ⟨⟩⟩, List.forall_mem_nil _⟩ ?_ h
  exact fun s l s' h hs => closersInv_step hP h hs

theorem Closable.settles (hP : Closable P V accepted load own work Inv)
    (h : (servedClosers intoBoxed limit P V).Reachable s) :
    (servedClosers intoBoxed limit P V).Settles (ClosersLabel.own own) (s.work V work)
      (fun s => s.served.loop ≠ .aborted → ∀ c ∈ s.calls, c.stage.over = true) s := by
  refine Lts.settles_of_work (J := ClosersInv V accepted Inv) ?_ ?_
    (closersInv_of_reachable hP h)
  · exact fun s l s' h hl hs => ⟨closersInv_step hP h hs, closers_work hP h hl hs⟩
  · exact fun s h hq => closers_rest hP h hq

omit [StdSyncSendError E] in
/-- A call that has returned has found the stream handled to its end, with nobody left to send. -/
theorem ClosersInv.returned (h : ClosersInv V accepted Inv s) {c : CloseCall} (hc : c ∈ s.calls)
    (hr : c.stage = .returned) : s.served.loop = .ended
      ∧ s.served.processed V = V.stx s.served.poller ∧ V.silent s.served.poller = true := by
  have hcall := h.calls c hc
  have hended := hcall.ended (hcall.returned hr)
  obtain ⟨hheard, hsilent⟩ := h.served.ended hended
  exact ⟨hended, by rw [ServedState.processed, hheard, List.take_length], hsilent⟩

end Closers

section Pollers

section Counted

variable {M R E σ ℓ : Type} {P : Lts σ (PollerLabel M ℓ)} {V : PollerView σ R E}
  {accepted : σ → List (Request M)} {load : σ → ℕ} {Inv Inv' : σ → Prop}

/-- A poller is counted as well with more that it keeps. -/
theorem Counted.and (h : Counted P V accepted load Inv) (hstart : Inv' P.start)
    (hstep : ∀ s l s', Inv s → Inv' s → P.step s l = some s' → Inv' s') :
    Counted P V accepted load (fun s => Inv s ∧ Inv' s) where
  start := ⟨h.start, hstart⟩
  fresh := h.fresh
  silent := h.silent
  step s l s' hs hstep' := ⟨h.step s l s' hs.1 hstep', hstep s l s' hs.1 hs.2 hstep'⟩
  push := h.push
  run := h.run
  load_le s hs := h.load_le s hs.1
  quiet s hs := h.quiet s hs.1

/-- A poller is counted as well where not all is done to it. -/
theorem Counted.restrict (h : Counted P V accepted load Inv) (ok : PollerLabel M ℓ → Bool) :
    Counted (P.restrict ok) V accepted load Inv where
  start := h.start
  fresh := h.fresh
  silent := h.silent
  step s l s' hs hstep := h.step s l s' hs (Lts.restrict_step.1 hstep).2
  push s item s' hstep := h.push s item s' (Lts.restrict_step.1 hstep).2
  run s l s' hstep := h.run s l s' (Lts.restrict_step.1 hstep).2
  load_le := h.load_le
  quiet := h.quiet

end Counted

variable {M R E : Type}

namespace BufferUnordered

variable {cfg : BufferUnorderedConfig} {s s' : BufferUnordered M R E}

/-- The permits are shared out, the items answered, and a loop that has panicked takes nothing. -/
structure Closes (cfg : BufferUnorderedConfig) (s : BufferUnordered M R E) : Prop where
  guarded : Guarded cfg s
  tracked : Tracked s
  aborted : s.pc = .aborted → s.closed = true

theorem aborted_step {l : PollerLabel M (Label R E)} (h : s.pc = .aborted → s.closed = true)
    (hs : s.step cfg l = some s') : s'.pc = .aborted → s'.closed = true := by
  cases move hs with
  | push item hclosed =>
    intro hp
    rw [h hp] at hclosed
    cases hclosed
  | take item rx hpc =>
    rcases item with a | ⟨mid, msg, req⟩
    · cases a <;> simp [body, emit, hpc]
    · simp [body]
  | syncPanic => exact fun _ => rfl
  | start | finish | panic | send => exact h
  | _ => rintro ⟨⟩

/-- Nothing moves in a poller that is gone. -/
theorem gone_run {l : Label R E} (hsilent : view.silent s = true) : s.run cfg l = none := by
  obtain ⟨hgone, htasks⟩ := Bool.and_eq_true_iff.1 hsilent
  have htask : ∀ (i : ℕ) (t : CallTask M R E), s.tasks[i]? = some t → t.stage.gone = true :=
    fun i t hi => List.all_eq_true.1 htasks t (List.mem_of_getElem? hi)
  by_contra hne
  obtain ⟨s', hs'⟩ := Option.ne_none_iff_exists'.1 hne
  have hs' : s.step cfg (.run l) = some s' := hs'
  cases move hs' with
  | take _ _ hpc | ends hpc | dispatch _ _ hpc | flushed hpc | sync hpc | synced _ hpc
  | syncPanic hpc =>
    rw [hpc] at hgone
    cases hgone
  | start i mid msg hi | finish i mid msg _ hi | panic i mid msg hi | send i mid msg _ hi =>
    cases htask i _ hi

theorem closable (hpos : 1 ≤ cfg.maxParallel) (hmax : cfg.maxParallel ≤ 2305843009213693951) :
    Closable (bufferUnorderedPoller M R E cfg) view accepted load (fun _ => true) work
      (fun s => Kept s ∧ Closes cfg s) where
  toCounted := by
    refine (counted cfg).and ⟨guarded_start, .start, ?_⟩ fun s l s' _ h hs => ?_
    · show (start cfg : BufferUnordered M R E).pc = .aborted → _
      rw [start, if_pos hmax]
      rintro ⟨⟩
    · exact ⟨guarded_step h.guarded hs, tracked_step h.tracked hs, aborted_step h.aborted hs⟩
  close s s' hs := by
    have hs : s.step cfg (.push (.action .close)) = some s' := hs
    cases move hs
    simp only [work, List.map_append, List.map_cons, List.map_nil, List.sum_append,
      List.sum_singleton, itemWork]
    omega
  emits s l s' _ hs := by
    have hs : s.step cfg (.run l) = some s' := hs
    show s'.stx.length ≤ s.stx.length + 1
    cases move hs with
    | take item rx hpc =>
      rcases item with a | ⟨mid, msg, req⟩
      · cases a <;> simp [body, emit]
      · simp [body]
    | _ => simp [emit]
  less _ _ _ _ _ hs := work_run hs
  refuses s item h hsilent := by
    obtain ⟨hgone, -⟩ := Bool.and_eq_true_iff.1 hsilent
    have hclosed : s.closed = true := by
      rcases hpc : s.pc <;> simp only [hpc, Pc.gone, Bool.false_eq_true] at hgone
      · exact (h.2.tracked.drained hpc).2
      · exact h.2.aborted hpc
    simp [bufferUnorderedPoller, step, hclosed]
  gone s l s' _ hsilent hs := by
    have hs : s.run cfg l = some s' := hs
    rw [gone_run hsilent] at hs
    cases hs
  rest s h hq hclose := by
    have hq : (bufferUnorderedPoller M R E cfg).Quiet PollerLabel.own s := by
      rintro (item | l) hown
      · cases hown
      · exact hq l rfl
    have hrest := rested_of_quiet hpos h.2.guarded h.2.tracked hq
    have hgone : s.pc.gone = true := by
      rcases hrest.loop with ⟨hrx, ⟨-, hclosed⟩ | hpc⟩ | hpc
      · rw [accepted, hrx, List.append_nil] at hclose
        rw [h.2.tracked.closing hclose] at hclosed
        cases hclosed
      · rw [hpc]
        rfl
      · rw [hpc]
        rfl
    exact Bool.and_eq_true_iff.2 ⟨hgone, List.all_eq_true.2 hrest.tasks⟩

end BufferUnordered

namespace SynchronizedItem

variable {ι H : Type} [DecidableEq ι] [Fintype ι] {M R E : ι → Type}
  {f : SynchronizedHandler M R E H} {h₀ : H} {i : ι} {s s' : SynchronizedItem M R E H}

omit [Fintype ι] in
/-- A subscription whose loop has panicked takes nothing. -/
theorem aborted_step {l : ItemLabel M}
    (h : ∀ i, (s.subs i).pc = .aborted → (s.subs i).closed = true)
    (hs : s.step f l = some s') : ∀ i, (s'.subs i).pc = .aborted → (s'.subs i).closed = true := by
  have hset : ∀ {i : ι} {c : Subscription (M i) (R i) (E i) H},
      (c.pc = .aborted → c.closed = true) →
      ∀ j, ((s.set i c).subs j).pc = .aborted → ((s.set i c).subs j).closed = true :=
    forall_set (J := fun _ c => c.pc = .aborted → c.closed = true) h
  have hend : ∀ i (pc : Option (Subscription.Pc (M i) (R i) (E i) H)),
      (∀ pc' ∈ pc, pc' ≠ .aborted) →
      ((s.subs i).endCall pc).pc = .aborted → ((s.subs i).endCall pc).closed = true := by
    intro i pc hpc
    rcases pc with _ | pc
    · exact fun _ => rfl
    · exact fun hp => absurd hp (hpc pc rfl)
  cases move hs with
  | push i item hclosed =>
    refine hset fun hp => ?_
    rw [h i hp] at hclosed
    cases hclosed
  | take i item rx hpc =>
    refine hset ?_
    rcases item with a | ⟨mid, msg, req⟩
    · cases a <;> simp [Subscription.body, Subscription.emit, hpc]
    · simp [Subscription.body]
  | ends | call | callSync | respond | report => exact hset (by rintro ⟨⟩)
  | handled i mid msg seen | synced i seen =>
    refine hset (hend i _ fun pc' hpc' => ?_)
    obtain ⟨resp, -, rfl⟩ := Option.map_eq_some_iff.1 hpc'
    rintro ⟨⟩

omit [Fintype ι] in
/-- Nothing moves in a subscription that is gone, whatever the others do. -/
theorem gone_step {l : ItemLabel M} (hl : ∀ item, l ≠ .push i item)
    (hgone : (s.subs i).pc.gone = true) (hs : s.step f l = some s') :
    s'.subs i = s.subs i := by
  have hset : ∀ {j : ι} (c : Subscription (M j) (R j) (E j) H), (s.subs j).pc.gone = false →
      (s.set j c).subs i = s.subs i := by
    intro j c hj
    refine subs_set_ne (fun hij => ?_) c
    subst hij
    rw [hj] at hgone
    cases hgone
  cases move hs with
  | push j item =>
    refine subs_set_ne (fun hij => ?_) _
    subst hij
    exact hl item rfl
  | take j _ _ hpc | ends j hpc | call j _ _ _ hpc | callSync j _ hpc | handled j _ _ _ hpc
  | synced j _ hpc | respond j _ _ hpc | report j _ hpc =>
    exact hset _ (by rw [hpc]; rfl)

omit [Fintype ι] in
theorem length_stx_step {l : ItemLabel M} (hs : s.step f l = some s') :
    (s'.subs i).stx.length ≤ (s.subs i).stx.length + 1 := by
  have hset : ∀ {j : ι} {c : Subscription (M j) (R j) (E j) H},
      c.stx.length ≤ (s.subs j).stx.length + 1 →
      ((s.set j c).subs i).stx.length ≤ (s.subs i).stx.length + 1 := fun {j c} hc =>
    forall_set (J := fun j c => c.stx.length ≤ (s.subs j).stx.length + 1)
      (fun _ => Nat.le_succ _) hc i
  cases move hs with
  | take j item =>
    refine hset ?_
    rcases item with a | ⟨mid, msg, req⟩
    · cases a <;> simp [Subscription.body, Subscription.emit]
    · simp [Subscription.body]
  | handled j mid msg seen => exact hset (by cases (f.handle j seen msg).2 <;> exact Nat.le_succ _)
  | synced j seen => exact hset (by cases (f.sync j seen).2 <;> exact Nat.le_succ _)
  | respond | report => exact hset (by simp [Subscription.emit])
  | _ => exact hset (Nat.le_succ _)

theorem work_set_add (s : SynchronizedItem M R E H) (i : ι)
    (c : Subscription (M i) (R i) (E i) H) :
    (s.set i c).work + (s.subs i).work = s.work + c.work :=
  Lts.sum_update_add (fun _ c => c.work) s.subs i c

theorem work_push (s : SynchronizedItem M R E H) {i : ι} {c : Subscription (M i) (R i) (E i) H}
    (item : Request (M i)) (hrx : c.rx = (s.subs i).rx ++ [item]) (hpc : c.pc = (s.subs i).pc) :
    (s.set i c).work = s.work + Subscription.itemWork item := by
  have hset := work_set_add s i c
  simp only [Subscription.work, hrx, hpc, List.map_append, List.map_cons, List.map_nil,
    List.sum_append, List.sum_singleton] at hset
  omega

theorem closable (f : SynchronizedHandler M R E H) (h₀ : H) (i : ι) :
    Closable (synchronizedPoller f h₀ i) (view i) (fun s => (s.subs i).accepted)
      (fun s => (s.subs i).load) ItemLabel.own work
      (fun s => (∀ i, (s.subs i).InOrder) ∧ Kept s
        ∧ ∀ i, (s.subs i).pc = .aborted → (s.subs i).closed = true) where
  toCounted := by
    have hstep : ∀ s (l : ItemLabel M) s', (Kept s
        ∧ ∀ i, (s.subs i).pc = .aborted → (s.subs i).closed = true) → s.step f l = some s' →
        Kept s' ∧ ∀ i, (s'.subs i).pc = .aborted → (s'.subs i).closed = true :=
      fun s l s' h hs => ⟨kept_step h.1 hs, aborted_step h.2 hs⟩
    refine (counted f h₀ i).and ⟨⟨by rintro _ ⟨⟩, fun i => ⟨by rintro ⟨⟩, by rintro ⟨⟩⟩⟩,
      fun i => by rintro ⟨⟩⟩ fun s l s' _ h hs => ?_
    cases l with
    | push item => exact hstep s (.push i item) s' h hs
    | run l => exact hstep s l s' h (poller_run hs).1
  close s s' hs := by
    have hs : s.step f (.push i (.action .close)) = some s' := hs
    cases move hs
    exact work_push s (.action .close) rfl rfl
  emits s l s' _ hs := length_stx_step (poller_run hs).1
  less s l s' _ hl hs := work_step hl (poller_run hs).1
  refuses s item h hsilent := by
    have hgone : (s.subs i).pc.gone = true := hsilent
    have hclosed : (s.subs i).closed = true := by
      rcases hpc : (s.subs i).pc <;>
        simp only [hpc, Subscription.Pc.gone, Bool.false_eq_true] at hgone
      · exact ((h.2.1.tracked i).drained hpc).2
      · exact h.2.2 i hpc
    simp [synchronizedPoller, step, Subscription.push, hclosed]
  gone s l s' _ hsilent hs := by
    have := gone_step (poller_run hs).2 hsilent (poller_run hs).1
    exact ⟨by simp only [view, this]; exact hsilent, by simp only [view, this]⟩
  rest s h hq hclose := by
    have hq : (synchronizedItem f h₀).Quiet ItemLabel.own s := by
      intro l hl
      cases l with
      | push => cases hl
      | _ => exact hq _ hl
    show (s.subs i).pc.gone = true
    rcases rested_of_quiet h.2.1 hq i with ⟨hrx, ⟨-, hclosed⟩ | hpc⟩ | hpc
    · rw [Subscription.accepted, hrx, List.append_nil] at hclose
      rw [(h.2.1.tracked i).closing hclose] at hclosed
      cases hclosed
    · rw [hpc]
      rfl
    · rw [hpc]
      rfl

end SynchronizedItem

namespace BatchCore

variable {c c' : BatchCore M R E}

/-- A task that is over does not move. -/
theorem not_taskStep_of_gone (h : ∀ t ∈ c.tasks, t.gone = true) : ¬ TaskStep c c' := by
  intro hc
  obtain ⟨i, t, t', hi, -, hlt, -⟩ := hc.tasks
  have hgone := h t (List.mem_of_getElem? hi)
  obtain ⟨batch, stage⟩ := t
  rcases stage with _ | _ | ⟨_ | ⟨ev, evs⟩⟩
  · cases hgone
  · cases hgone
  · cases hlt
  · cases hgone

theorem TaskStep.length_stx (h : TaskStep c c') : c'.stx.length ≤ c.stx.length + 1 := by
  obtain ⟨i, t, t', -, -, -, -, hlen⟩ := h.tasks
  exact hlen

theorem Done.all_gone (h : c.Done) : c.tasks.all BatchTask.gone = true :=
  List.all_eq_true.2 fun t ht => by rw [BatchTask.gone, h t ht]

end BatchCore

namespace BufferUnorderedBatched

variable {cfg : BufferUnorderedBatchedConfig} {s s' : BufferUnorderedBatched M R E}

/-- No `Stats` is in the queue, and a loop that has panicked takes nothing. -/
structure Alive (s : BufferUnorderedBatched M R E) : Prop where
  stats : Request.action .stats ∉ s.core.rx
  aborted : s.pc = .aborted → s.core.closed = true

theorem alive_step {l : PollerLabel M (BufferUnorderedBatchedLabel R E ⊕ Panic)} (h : Alive s)
    (hl : l.noStats = true)
    (hs : (withPanics (bufferUnorderedBatchPoller M R E cfg) (panic cfg)).step s l = some s') :
    Alive s' := by
  have htask : ∀ (c : BatchCore M R E) (permits : ℕ), BatchCore.TaskStep s.core c →
      Alive { s with core := c, permits := permits } := by
    intro c permits hc
    have hf := hc.frame
    refine ⟨?_, ?_⟩
    · rw [hf.rx]
      exact h.stats
    · rw [hf.closed]
      exact h.aborted
  rcases l with item | l | p
  · have hs : s.step cfg (.push item) = some s' := hs
    cases move hs with
    | push _ hclosed =>
      refine ⟨?_, fun hp => ?_⟩
      · rw [List.mem_append, not_or, List.mem_singleton]
        refine ⟨h.stats, ?_⟩
        rintro rfl
        cases hl
      · rw [h.aborted hp] at hclosed
        cases hclosed
  · have hs : s.step cfg (.run l) = some s' := hs
    cases move hs with
    | take item rx hpc hrx =>
      have hstats := h.stats
      rw [hrx, List.mem_cons, not_or] at hstats
      rcases item with a | ⟨mid, msg, req⟩
      · rcases a with id | _ | _ | _ | _
        · exact ⟨hstats.2, fun hp => by simp [body, hpc] at hp⟩
        · simp only [body]
          split_ifs <;> exact ⟨hstats.2, by rintro ⟨⟩⟩
        · exact ⟨hstats.2, by rintro ⟨⟩⟩
        · exact ⟨hstats.2, fun _ => rfl⟩
        · exact absurd rfl hstats.1
      · simp only [body]
        split_ifs <;> exact ⟨hstats.2, by rintro ⟨⟩⟩
    | start i c hc => exact htask c _ (.start hc)
    | finish i resp c hc => exact htask c _ (.finish hc)
    | send i c hc => exact htask c _ (.send hc)
    | _ => exact ⟨h.stats, by rintro ⟨⟩⟩
  · obtain ⟨i, c, -, hc, rfl⟩ | ⟨-, hpc, rfl⟩ := panic_cases hs
    · exact htask c _ (.panic hc)
    · exact ⟨h.stats, fun _ => rfl⟩

/-- Nothing moves in a poller that is gone. -/
theorem gone_run {l : BufferUnorderedBatchedLabel R E ⊕ Panic} (hsilent : view.silent s = true) :
    (withPanics (bufferUnorderedBatchPoller M R E cfg) (panic cfg)).step s (.run l) = none := by
  obtain ⟨hgone, htasks⟩ := Bool.and_eq_true_iff.1 hsilent
  have htask : ∀ c, ¬ BatchCore.TaskStep s.core c := fun c hc =>
    BatchCore.not_taskStep_of_gone (List.all_eq_true.1 htasks) hc
  by_contra hne
  obtain ⟨s', hs'⟩ := Option.ne_none_iff_exists'.1 hne
  rcases l with l | p
  · have hs' : s.step cfg (.run l) = some s' := hs'
    cases move hs' with
    | start i c hc => exact htask c (.start hc)
    | finish i resp c hc => exact htask c (.finish hc)
    | send i c hc => exact htask c (.send hc)
    | take _ _ hpc | ends hpc | dispatch hpc | flushDispatch _ hpc | flushed hpc | sync hpc
    | synced _ hpc =>
      rw [hpc] at hgone
      cases hgone
  · obtain ⟨i, c, -, hc, -⟩ | ⟨-, hpc, -⟩ := panic_cases hs'
    · exact htask c (.panic hc)
    · rw [hpc] at hgone
      cases hgone

theorem length_stx_run {l : BufferUnorderedBatchedLabel R E ⊕ Panic}
    (hs : (withPanics (bufferUnorderedBatchPoller M R E cfg) (panic cfg)).step s (.run l)
      = some s') : s'.core.stx.length ≤ s.core.stx.length + 1 := by
  rcases l with l | p
  · have hs : s.step cfg (.run l) = some s' := hs
    cases move hs with
    | take item rx hpc =>
      rcases item with a | ⟨mid, msg, req⟩
      · cases a with
        | flush =>
          simp only [body]
          split_ifs <;> exact Nat.le_succ _
        | _ => simp [body, BatchCore.emit]
      · simp [body, BatchCore.bufferPush]
    | start i c hc => exact (BatchCore.TaskStep.start hc).length_stx
    | finish i resp c hc => exact (BatchCore.TaskStep.finish hc).length_stx
    | send i c hc => exact (BatchCore.TaskStep.send hc).length_stx
    | flushed | synced => simp [BatchCore.emit]
    | _ => exact Nat.le_succ _
  · obtain ⟨i, c, -, hc, rfl⟩ | ⟨-, hpc, rfl⟩ := panic_cases hs
    · exact (BatchCore.TaskStep.panic hc).length_stx
    · exact Nat.le_succ _

theorem closable (hpos : 1 ≤ cfg.maxParallel) (hcfg : cfg.Starts) :
    Closable ((withPanics (bufferUnorderedBatchPoller M R E cfg) (panic cfg)).restrict
        PollerLabel.noStats) view (fun s => s.core.accepted) load (fun _ => true) work
      (fun s => s.core.Within s.pc.held
        ∧ (Guarded cfg s ∧ Splits cfg s) ∧ Tracked s ∧ Alive s) where
  toCounted := by
    refine ((counted cfg).restrict PollerLabel.noStats).and
      ⟨⟨guarded_start, splits_start⟩, tracked_start, List.not_mem_nil, ?_⟩ fun s l s' _ h hs => ?_
    · show (start cfg : BufferUnorderedBatched M R E).pc = .aborted → _
      rw [start, if_pos hcfg]
      rintro ⟨⟩
    · obtain ⟨hl, hs⟩ := Lts.restrict_step.1 hs
      refine ⟨?_, tracked_step h.2.1 hs, alive_step h.2.2 hl hs⟩
      obtain ⟨l', hl'⟩ | ⟨p, hp⟩ := withPanics_step hs
      · exact ⟨guarded_step h.1.1 h.1.2 hl', splits_step h.1.2 hl'⟩
      · exact guarded_panic h.1.1 h.1.2 hp
  close s s' hs := by
    have hs : s.step cfg (.push (.action .close)) = some s' := (Lts.restrict_step.1 hs).2
    cases move hs
    simp only [work, List.map_append, List.map_cons, List.map_nil, List.sum_append,
      List.sum_singleton, itemWork]
    omega
  emits s l s' _ hs := length_stx_run (Lts.restrict_step.1 hs).2
  less s l s' _ _ hs := work_run (Lts.restrict_step.1 hs).2
  refuses s item h hsilent := by
    obtain ⟨hgone, -⟩ := Bool.and_eq_true_iff.1 hsilent
    have hclosed : s.core.closed = true := by
      rcases hpc : s.pc <;> simp only [hpc, BufferUnorderedPc.gone, Bool.false_eq_true] at hgone
      · exact (h.2.2.1.drained hpc).2
      · exact h.2.2.2.aborted hpc
    simp [Lts.restrict, withPanics, bufferUnorderedBatchPoller, step, BatchCore.push, hclosed]
  gone s l s' _ hsilent hs := by
    rw [Lts.restrict_step, gone_run hsilent] at hs
    cases hs.2
  rest s h hq hclose := by
    have hq : (withPanics (bufferUnorderedBatchPoller M R E cfg) (panic cfg)).Quiet
        PollerLabel.own s := by
      rintro (item | l) hown
      · cases hown
      · exact hq l rfl
    have hrest := rested_of_quiet hpos h.2.1.1 h.2.2.1 hq
    have hgone : s.pc.gone = true := by
      rcases hrest.loop with ⟨hrx, ⟨-, hclosed⟩ | hpc⟩ | hpc
      · rw [BatchCore.accepted, hrx, List.append_nil] at hclose
        rw [h.2.2.1.closing hclose] at hclosed
        cases hclosed
      · rw [hpc]
        rfl
      · rw [hpc]
        rfl
    exact Bool.and_eq_true_iff.2 ⟨hgone, hrest.tasks.all_gone⟩

end BufferUnorderedBatched

namespace SynchronizedBatched

variable {cfg : SynchronizedBatchedConfig} {s s' : SynchronizedBatched M R E}

/-- No `Stats` is in the queue, and a loop that has panicked takes nothing. -/
structure Alive (s : SynchronizedBatched M R E) : Prop where
  stats : Request.action .stats ∉ s.core.rx
  aborted : s.pc = .aborted → s.core.closed = true

variable (cfg) in
/-- Only a `Stats` makes the loop panic, and what the queue holds stays. -/
theorem rx_pc_body (s : SynchronizedBatched M R E) {item : Request M}
    (hitem : item ≠ .action .stats) : (body cfg s item).core.rx = s.core.rx
      ∧ ((body cfg s item).pc = .aborted → s.pc = .aborted) := by
  rcases item with a | ⟨mid, msg, req⟩
  · cases a with
    | flush =>
      simp only [body]
      split_ifs <;> exact ⟨rfl, id⟩
    | sync => exact ⟨rfl, by rintro ⟨⟩⟩
    | stats => exact absurd rfl hitem
    | _ => exact ⟨rfl, id⟩
  · simp only [body]
    split_ifs <;> exact ⟨rfl, id⟩

theorem alive_step {l : PollerLabel M (SynchronizedBatchedLabel R E ⊕ Panic)} (h : Alive s)
    (hl : l.noStats = true)
    (hs : (withPanics (batchSynchronizedPoller M R E cfg) panic).step s l = some s') :
    Alive s' := by
  have htask : ∀ (c : BatchCore M R E) (lock : List Holder), BatchCore.TaskStep s.core c →
      Alive { s with core := c, lock := lock } := by
    intro c lock hc
    have hf := hc.frame
    refine ⟨?_, ?_⟩
    · rw [hf.rx]
      exact h.stats
    · rw [hf.closed]
      exact h.aborted
  rcases l with item | l | p
  · have hs : s.step cfg (.push item) = some s' := hs
    cases move hs with
    | push _ hclosed =>
      refine ⟨?_, fun hp => ?_⟩
      · rw [List.mem_append, not_or, List.mem_singleton]
        refine ⟨h.stats, ?_⟩
        rintro rfl
        cases hl
      · rw [h.aborted hp] at hclosed
        cases hclosed
  · have hs : s.step cfg (.run l) = some s' := hs
    cases move hs with
    | take item rx hpc hrx =>
      have hstats := h.stats
      rw [hrx, List.mem_cons, not_or] at hstats
      obtain ⟨hbody, hpc'⟩ := rx_pc_body cfg
        { s with core.rx := rx, core.taken := s.core.taken ++ [item] } (Ne.symm hstats.1)
      refine ⟨by rw [hbody]; exact hstats.2, fun hp => ?_⟩
      have := hpc' hp
      rw [hpc] at this
      cases this
    | start i c _ hc => exact htask c _ (.start hc)
    | finish i resp c _ hc => exact htask c _ (.finish hc)
    | send i c hc => exact htask c _ (.send hc)
    | ask | askOther | otherDone => exact ⟨h.stats, h.aborted⟩
    | _ => exact ⟨h.stats, by rintro ⟨⟩⟩
  · obtain ⟨i, c, -, -, hc, rfl⟩ | ⟨-, hpc, rfl⟩ := panic_cases hs
    · exact htask c _ (.panic hc)
    · exact ⟨h.stats, fun _ => rfl⟩

/-- Of a poller that is gone only the line for the mutex moves. -/
theorem gone_run {l : SynchronizedBatchedLabel R E ⊕ Panic} (hsilent : view.silent s = true)
    (hs : (withPanics (batchSynchronizedPoller M R E cfg) panic).step s (.run l) = some s') :
    s'.core = s.core ∧ s'.pc = s.pc := by
  obtain ⟨hgone, htasks⟩ := Bool.and_eq_true_iff.1 hsilent
  have htask : ∀ c, ¬ BatchCore.TaskStep s.core c := fun c hc =>
    BatchCore.not_taskStep_of_gone (List.all_eq_true.1 htasks) hc
  rcases l with l | p
  · have hs : s.step cfg (.run l) = some s' := hs
    cases move hs with
    | ask | askOther | otherDone => exact ⟨rfl, rfl⟩
    | start i c _ hc => exact absurd (.start hc) (htask c)
    | finish i resp c _ hc => exact absurd (.finish hc) (htask c)
    | send i c hc => exact absurd (.send hc) (htask c)
    | take _ _ hpc | ends hpc | askSync hpc | startSync hpc | synced _ hpc =>
      rw [hpc] at hgone
      cases hgone
  · obtain ⟨i, c, -, -, hc, -⟩ | ⟨-, hpc, -⟩ := panic_cases hs
    · exact absurd (.panic hc) (htask c)
    · rw [hpc] at hgone
      cases hgone

theorem length_stx_run {l : SynchronizedBatchedLabel R E ⊕ Panic}
    (hs : (withPanics (batchSynchronizedPoller M R E cfg) panic).step s (.run l) = some s') :
    s'.core.stx.length ≤ s.core.stx.length + 1 := by
  rcases l with l | p
  · have hs : s.step cfg (.run l) = some s' := hs
    cases move hs with
    | take item rx hpc =>
      rcases item with a | ⟨mid, msg, req⟩
      · cases a with
        | flush =>
          simp only [body]
          split_ifs <;> simp [BatchCore.emit, BatchCore.spawn, BatchCore.drain]
        | _ => simp [body, BatchCore.emit]
      · simp only [body]
        split_ifs <;> exact Nat.le_succ _
    | start i c _ hc => exact (BatchCore.TaskStep.start hc).length_stx
    | finish i resp c _ hc => exact (BatchCore.TaskStep.finish hc).length_stx
    | send i c hc => exact (BatchCore.TaskStep.send hc).length_stx
    | synced => simp [BatchCore.emit]
    | _ => exact Nat.le_succ _
  · obtain ⟨i, c, -, -, hc, rfl⟩ | ⟨-, hpc, rfl⟩ := panic_cases hs
    · exact (BatchCore.TaskStep.panic hc).length_stx
    · exact Nat.le_succ _

/-- The steps of a poller with panics that are its own. -/
def runOwn : SynchronizedBatchedLabel R E ⊕ Panic → Bool
  | .inl .askOther => false
  | _ => true

theorem closable (hcfg : cfg.Starts) :
    Closable ((withPanics (batchSynchronizedPoller M R E cfg) panic).restrict PollerLabel.noStats)
      view (fun s => s.core.accepted) (fun s => s.core.load) runOwn work
      (fun s => s.core.Within 0 ∧ Kept cfg s ∧ Alive s) where
  toCounted := by
    refine ((counted cfg).restrict PollerLabel.noStats).and
      ⟨kept_of_reachable .start, List.not_mem_nil, fun hpc => ?_⟩ fun s l s' _ h hs => ?_
    · simp [Lts.restrict, withPanics, batchSynchronizedPoller, start, hcfg] at hpc
    obtain ⟨hl, hs⟩ := Lts.restrict_step.1 hs
    exact ⟨kept_step h.1 hs, alive_step h.2 hl hs⟩
  close s s' hs := by
    have hs : s.step cfg (.push (.action .close)) = some s' := (Lts.restrict_step.1 hs).2
    cases move hs
    simp only [work, List.map_append, List.map_cons, List.map_nil, List.sum_append,
      List.sum_singleton, itemWork]
    omega
  emits s l s' _ hs := length_stx_run (Lts.restrict_step.1 hs).2
  less s l s' h hl hs := by
    refine work_run h.2.1.queued ?_ (Lts.restrict_step.1 hs).2
    rcases l with l | p
    · cases l <;> first | rfl | cases hl
    · rfl
  refuses s item h hsilent := by
    obtain ⟨hgone, -⟩ := Bool.and_eq_true_iff.1 hsilent
    have hclosed : s.core.closed = true := by
      rcases hpc : s.pc <;> simp only [hpc, SynchronizedPc.gone, Bool.false_eq_true] at hgone
      · exact (h.2.1.tracked.drained hpc).2
      · exact h.2.2.aborted hpc
    simp [Lts.restrict, withPanics, batchSynchronizedPoller, step, BatchCore.push, hclosed]
  gone s l s' _ hsilent hs := by
    obtain ⟨hcore, hpc⟩ := gone_run hsilent (Lts.restrict_step.1 hs).2
    constructor
    · simp only [view, hcore, hpc]
      exact hsilent
    · simp only [view, hcore]
  rest s h hq hclose := by
    have hq : (withPanics (batchSynchronizedPoller M R E cfg) panic).Quiet own s := by
      rintro (item | l) hown
      · cases hown
      · refine hq l ?_
        rcases l with l | p
        · cases l <;> first | rfl | cases hown
        · rfl
    have hrest := rested_of_quiet h.2.1.queued h.2.1.tracked hq
    have hgone : s.pc.gone = true := by
      rcases hrest.loop with ⟨hrx, ⟨-, hclosed⟩ | hpc⟩ | hpc
      · rw [BatchCore.accepted, hrx, List.append_nil] at hclose
        rw [h.2.1.tracked.closing hclose] at hclosed
        cases hclosed
      · rw [hpc]
        rfl
      · rw [hpc]
        rfl
    exact Bool.and_eq_true_iff.2 ⟨hgone, hrest.tasks.all_gone⟩

end SynchronizedBatched

end Pollers

section Results

variable {M R E B σ ℓ : Type} [StdSyncSendError E]

/-- Of a receiver around `P` and the callers of its `close`: left alone they stop, by then with
every call over unless the event loop has panicked; and a call that has returned has found the loop
ended, with every event of the stream processed and nobody left to send on it. -/
def ClosesOut (intoBoxed : R → B) (limit : UInt64) (P : Lts σ (PollerLabel M ℓ))
    (V : PollerView σ R E) (own : ℓ → Bool) (work : σ → ℕ) : Prop :=
  ∀ s, (servedClosers intoBoxed limit P V).Reachable s →
    (servedClosers intoBoxed limit P V).Settles (ClosersLabel.own own) (s.work V work)
        (fun s => s.served.loop ≠ .aborted → ∀ c ∈ s.calls, c.stage.over = true) s
      ∧ ∀ c ∈ s.calls, c.stage = .returned → s.served.loop = .ended
        ∧ s.served.processed V = V.stx s.served.poller ∧ V.silent s.served.poller = true

theorem Closable.closesOut {P : Lts σ (PollerLabel M ℓ)} {V : PollerView σ R E}
    {accepted : σ → List (Request M)} {load work : σ → ℕ} {own : ℓ → Bool} {Inv : σ → Prop}
    (hP : Closable P V accepted load own work Inv) (intoBoxed : R → B) (limit : UInt64) :
    ClosesOut intoBoxed limit P V own work :=
  fun _ h => ⟨hP.settles h, fun _ hc => (closersInv_of_reachable hP h).returned hc⟩

end Results

/-- No caller of `close` is left behind, and none returns before its receiver is done: for the four
kinds of local receiver, with any number of callers, whatever else is sent and in whichever order
the steps come. A `BufferUnordered` one must have a permit to give and no more than a semaphore
may have; the batched ones must get to their loop, and are not sent a `Stats`. -/
theorem local_receivers_close_out {ι B H M R E : Type} [DecidableEq ι] [Fintype ι]
    [StdSyncSendError E] {Mi Ri Ei : ι → Type} [∀ i, StdSyncSendError (Ei i)] (limit : UInt64)
    (intoBoxed : R → B) :
    (∀ cfg, 1 ≤ cfg.maxParallel → cfg.maxParallel ≤ 2305843009213693951 →
      ClosesOut intoBoxed limit (bufferUnorderedPoller M R E cfg) BufferUnordered.view
        (fun _ => true) BufferUnordered.work)
    ∧ (∀ (f : SynchronizedHandler Mi Ri Ei H) (h₀ : H) (i : ι) (g : Ri i → B),
      ClosesOut g limit (synchronizedPoller f h₀ i) (SynchronizedItem.view i)
        ItemLabel.own SynchronizedItem.work)
    ∧ (∀ cfg, 1 ≤ cfg.maxParallel → cfg.Starts →
      ClosesOut intoBoxed limit ((withPanics (bufferUnorderedBatchPoller M R E cfg)
          (BufferUnorderedBatched.panic cfg)).restrict PollerLabel.noStats)
        BufferUnorderedBatched.view (fun _ => true) BufferUnorderedBatched.work)
    ∧ ∀ cfg, cfg.Starts → ClosesOut intoBoxed limit ((withPanics (batchSynchronizedPoller M R E cfg)
          SynchronizedBatched.panic).restrict PollerLabel.noStats)
        SynchronizedBatched.view SynchronizedBatched.runOwn SynchronizedBatched.work :=
  ⟨fun _ hpos hmax => (BufferUnordered.closable hpos hmax).closesOut intoBoxed limit,
    fun f h₀ i g => (SynchronizedItem.closable f h₀ i).closesOut g limit,
    fun _ hpos hcfg => (BufferUnorderedBatched.closable hpos hcfg).closesOut intoBoxed limit,
    fun _ hcfg => (SynchronizedBatched.closable hcfg).closesOut intoBoxed limit⟩

/-- Two callers close a receiver that is handling a message. -/
theorem two_callers_close_out :
    (∃ s, (servedClosers (id : Unit → Unit) 1 (bufferUnorderedPoller Unit Unit GenericError ⟨1⟩)
        BufferUnordered.view).run [.serve (.push (.request 1 () false)), .serve (.run .recv),
          .serve (.run .acquire), .serve (.run (.start 0)), .start, .start, .push 0, .push 1,
          .poll 0] = some s ∧ s.calls = [⟨.parked, false⟩, ⟨.pushed, false⟩])
      ∧ ClosesOut (id : Unit → Unit) 1 (bufferUnorderedPoller Unit Unit GenericError ⟨1⟩)
        BufferUnordered.view (fun _ => true) BufferUnordered.work :=
  ⟨⟨_, rfl, rfl⟩, (@local_receivers_close_out Unit Unit Unit Unit Unit GenericError _ _ _
    (fun _ => Unit) (fun _ => Unit) (fun _ => GenericError) _ 1 id).1 ⟨1⟩ (by decide) (by decide)⟩

end MessageBus
