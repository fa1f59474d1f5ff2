import MessageBus.Proofs.Callers

/-!
# Calls that return for an action of another

An unbatched poller answers the `Flush`es and `Sync`s in the order its queue accepted them
(`AnswersInTurn`), so once it has answered more of a kind than were accepted before a call began, an
action pushed since is among them (`exists_answered`). A notification is whoever's is registered:
it covers the call it reaches where it was given for one of those actions (`covered_of_matched`).
-/

namespace MessageBus

section Kinds

variable {M R E : Type} {kind : BarrierKind}

/-- The item at `j` is an action of the kind, and the events sent answer it and all those before. -/
def Answered (kind : BarrierKind) (items : List (Request M)) (evs : List (Event R E)) (j : ℕ) :
    Prop :=
  (items[j]?.bind Request.kind?) = some kind ∧ asked kind (items.take (j + 1)) ≤ told kind evs

/-- The first action of the kind. -/
theorem exists_asked : ∀ {items : List (Request M)}, 0 < asked kind items →
    ∃ j, (items[j]?.bind Request.kind?) = some kind ∧ asked kind (items.take (j + 1)) = 1
  | [], h => by simp [asked] at h
  | item :: items, h => by
    have hcons : ∀ items : List (Request M), asked kind (item :: items)
        = (if item.kind? = some kind then 1 else 0) + asked kind items := fun items => by
      rw [← List.singleton_append, asked_append, asked_singleton]
    rw [hcons] at h
    by_cases hkind : item.kind? = some kind
    · exact ⟨0, by simpa using hkind, by simp [asked_singleton, hkind]⟩
    · rw [if_neg hkind, Nat.zero_add] at h
      obtain ⟨j, hj, hone⟩ := exists_asked h
      refine ⟨j + 1, by simpa using hj, ?_⟩
      rw [List.take_succ_cons, hcons, if_neg hkind, hone]

/-- Once more are answered than came in the first `n` items, one that came later is. -/
theorem exists_answered {items : List (Request M)} {evs : List (Event R E)} {n : ℕ}
    (hlt : asked kind (items.take n) < told kind evs)
    (hle : told kind evs ≤ asked kind items) : ∃ j, n ≤ j ∧ Answered kind items evs j := by
  have hsplit : asked kind (items.take n) + asked kind (items.drop n) = asked kind items := by
    rw [← asked_append, List.take_append_drop]
  have hpos : 0 < asked kind (items.drop n) := by omega
  obtain ⟨j, hj, hone⟩ := exists_asked hpos
  refine ⟨n + j, Nat.le_add_right .., by rwa [List.getElem?_drop] at hj, ?_⟩
  rw [Nat.add_assoc, List.take_add, asked_append, hone]
  exact hlt

/-- One event answers the first action of two. -/
theorem not_answered_second {ev : Event R E} :
    ¬ ∃ j, 1 ≤ j ∧ Answered kind ([.action kind.action, .action kind.action] : List (Request M))
      [ev] j := by
  rintro ⟨j, hj, -, hle⟩
  have htake : ([.action kind.action, .action kind.action] : List (Request M)).take (j + 1)
      = [.action kind.action] ++ [.action kind.action] :=
    List.take_of_length_le (by simpa using hj)
  rw [htake, asked_append, asked_singleton, kind_action, if_pos rfl, told_singleton] at hle
  split_ifs at hle <;> omega

theorem told_le_asked {items : List (Request M)} {evs : List (Event R E)}
    (h : evs.filterMap Event.kind? <+: items.filterMap Request.kind?) (kind : BarrierKind) :
    told kind evs ≤ asked kind items :=
  h.sublist.count_le kind

end Kinds

/-- The events of a poller for calls answer the actions in the order they were accepted. -/
def AnswersInTurn {M R E σ ℓ : Type} (P : Lts σ (PollerLabel M ℓ)) (V : PollerView σ R E)
    (accepted : σ → List (Request M)) : Prop :=
  ∀ s, P.Reachable s → (V.stx s).filterMap Event.kind? <+: (accepted s).filterMap Request.kind?

namespace BufferUnordered

variable {M R E : Type} {cfg : BufferUnorderedConfig} {s s' : BufferUnordered M R E}
  {l : PollerLabel M (Label R E)}

/-- The call whose action is in hand. -/
def Pc.kind? : Pc M → Option BarrierKind
  | .flushAll => some .flush
  | .syncAll | .syncing => some .sync
  | _ => none

structure InTurn (s : BufferUnordered M R E) : Prop where
  order : s.stx.filterMap Event.kind? <+: s.taken.filterMap Request.kind?
  owed : s.pc ≠ .aborted →
    s.stx.filterMap Event.kind? ++ s.pc.kind?.toList = s.taken.filterMap Request.kind?

theorem InTurn.of_owed
    (h : s.stx.filterMap Event.kind? ++ s.pc.kind?.toList = s.taken.filterMap Request.kind?) :
    InTurn s :=
  ⟨h ▸ List.prefix_append .., fun _ => h⟩

/-- Nothing happens to the action in hand. -/
theorem InTurn.congr (h : InTurn s)
    (hstx : s'.stx.filterMap Event.kind? = s.stx.filterMap Event.kind?)
    (htaken : s'.taken = s.taken) (hpc : s'.pc.kind? = s.pc.kind?)
    (haborted : s'.pc ≠ .aborted → s.pc ≠ .aborted) : InTurn s' where
  order := by
    rw [hstx, htaken]
    exact h.order
  owed hne := by
    rw [hstx, htaken, hpc]
    exact h.owed (haborted hne)

/-- The action in hand is answered. -/
theorem InTurn.answer (h : InTurn s) {ev : Event R E} (hne : s.pc ≠ .aborted)
    (hev : ev.kind? = s.pc.kind?) (permits : ℕ) :
    InTurn { s.emit ev with pc := .recv, permits := permits } := by
  refine .of_owed ?_
  have hmarks : (s.stx ++ [ev]).filterMap Event.kind?
      = s.stx.filterMap Event.kind? ++ s.pc.kind?.toList := by
    rw [List.filterMap_append, ← hev]
    rcases h : ev.kind? with _ | kind <;> simp [h]
  simpa [emit, Pc.kind?] using hmarks.trans (h.owed hne)

theorem inTurn_body (h : InTurn s) (hpc : s.pc = .recv) (item : Request M)
    (rx : List (Request M)) :
    InTurn (body { s with rx := rx, taken := s.taken ++ [item] } item) := by
  have howed : s.stx.filterMap Event.kind? = s.taken.filterMap Request.kind? := by
    simpa [hpc, Pc.kind?] using h.owed (by simp [hpc])
  have hkept : ∀ (c : BufferUnordered M R E),
      c.stx.filterMap Event.kind? = s.stx.filterMap Event.kind? → c.taken = s.taken ++ [item] →
      c.pc.kind? = item.kind? → InTurn c := by
    intro c hs ht hp
    refine .of_owed ?_
    rw [hs, ht, hp, howed, List.filterMap_append]
    rcases hm : item.kind? with _ | kind <;> simp [hm]
  have hrecv : s.pc.kind? = none := by rw [hpc]; rfl
  rcases item with a | ⟨mid, msg, req⟩
  · cases a with
    | init id => exact hkept _ (by simp [body, emit, Event.kind?]) rfl hrecv
    | close => exact hkept _ rfl rfl hrecv
    | _ => exact hkept _ rfl rfl rfl
  · exact hkept _ rfl rfl rfl

theorem inTurn_step (h : InTurn s) (hs : s.step cfg l = some s') : InTurn s' := by
  cases move hs with
  | push | start | finish | panic => exact h.congr rfl rfl rfl id
  | take item rx hpc hrx => exact inTurn_body h hpc item rx
  | ends hpc => exact h.congr rfl rfl (by rw [hpc]; rfl) fun _ => by simp [hpc]
  | dispatch mid msg hpc => exact h.congr rfl rfl (by rw [hpc]; rfl) fun _ => by simp [hpc]
  | flushed hpc => exact h.answer (by simp [hpc]) (by rw [hpc]; rfl) s.permits
  | sync hpc => exact h.congr rfl rfl (by rw [hpc]; rfl) fun _ => by simp [hpc]
  | synced resp hpc => exact h.answer (by simp [hpc]) (by rw [hpc]; rfl) _
  | syncPanic => exact ⟨h.order, fun hne => absurd rfl hne⟩
  | send => exact h.congr (by simp [emit, Event.kind?]) rfl rfl id

theorem answersInTurn (cfg : BufferUnorderedConfig) :
    AnswersInTurn (bufferUnorderedPoller M R E cfg) view accepted := by
  intro s hs
  have hinv : InTurn s := by
    refine Lts.invariant (J := InTurn) ?_ (fun _ _ _ h hs => inTurn_step h hs) hs
    have hpc : (start cfg : BufferUnordered M R E).pc.kind? = none := by
      simp only [start]
      split_ifs <;> rfl
    refine .of_owed ?_
    show [] ++ (start cfg : BufferUnordered M R E).pc.kind?.toList = []
    rw [hpc]
    rfl
  show s.stx.filterMap Event.kind? <+: (s.taken ++ s.rx).filterMap Request.kind?
  rw [List.filterMap_append]
  exact hinv.order.trans (List.prefix_append ..)

end BufferUnordered

section Synchronized

def Mark.kind? : Mark → Option BarrierKind
  | .flushed => some .flush
  | .synchronized => some .sync
  | _ => none

theorem Subscription.InOrder.kinds {M R E H : Type} {s : Subscription M R E H} (h : s.InOrder) :
    s.stx.filterMap Event.kind? <+: s.accepted.filterMap Request.kind? := by
  have hitems : ∀ items : List (Request M), items.filterMap Request.kind?
      = (items.filterMap Request.mark?).filterMap Mark.kind? := by
    intro items
    rw [List.filterMap_filterMap]
    refine List.filterMap_congr fun item _ => ?_
    rcases item with a | ⟨mid, msg, req⟩
    · cases a <;> rfl
    · rfl
  have hevs : s.stx.filterMap Event.kind?
      = (s.stx.filterMap Event.mark?).filterMap Mark.kind? := by
    rw [List.filterMap_filterMap]
    refine List.filterMap_congr fun ev _ => ?_
    cases ev <;> rfl
  unfold accepted
  rw [List.filterMap_append, hevs, hitems s.taken]
  exact (h.order.filterMap Mark.kind?).trans (List.prefix_append ..)

variable {ι H : Type} [DecidableEq ι] {M R E : ι → Type}

theorem SynchronizedItem.answersInTurn (f : SynchronizedHandler M R E H) (h₀ : H) (i : ι) :
    AnswersInTurn (synchronizedPoller f h₀ i) (view i) fun s => (s.subs i).accepted := by
  intro s hs
  have hP := counted f h₀ i
  exact (Lts.invariant hP.start hP.step hs i).kinds

end Synchronized

section Served

variable {M R E B σ ℓ : Type} [StdSyncSendError E] {intoBoxed : R → B} {limit : UInt64}
  {P : Lts σ (PollerLabel M ℓ)} {V : PollerView σ R E} {accepted : σ → List (Request M)}
  {load : σ → ℕ} {Inv : σ → Prop}

/-- The actions of the call's kind that were accepted before it began. -/
def ServedState.before (accepted : σ → List (Request M)) (s : ServedState σ R E B) (c : Caller) :
    ℕ :=
  asked c.kind ((accepted s.poller).take c.since)

namespace CallersState

/-- Every call that has returned has an action of its kind, pushed since it began, answered. -/
def Covered (V : PollerView σ R E) (accepted : σ → List (Request M))
    (s : CallersState (ServedState σ R E B)) : Prop :=
  ∀ c ∈ s.calls, c.stage = .returned → ∃ j, c.since ≤ j
    ∧ Answered c.kind (accepted s.receiver.poller) (V.stx s.receiver.poller) j

/-- A notification is given to a call, or taken, for the event of an action pushed since the call
began: the loop has handled those of all actions from before. -/
def Matched (intoBoxed : R → B) (V : PollerView σ R E) (accepted : σ → List (Request M))
    (s : CallersState (ServedState σ R E B)) : CallersLabel (ServedLabel M ℓ) → Prop
  | .poll i => ∀ c, s.calls[i]? = some c → c.kind = .flush → s.flushed.permit = true →
      s.receiver.before accepted c < s.receiver.told V .flush
  | .step l =>
    match (servedView intoBoxed V accepted).rings s.receiver l with
    | some .flush => ∀ w c, s.flushed.waiters.head? = some w → s.calls[w]? = some c →
        s.receiver.before accepted c ≤ s.receiver.told V .flush
    | some .sync => ∀ c ∈ s.calls, c.kind = .sync → c.stage ≠ .returned → c.stage ≠ .refused →
        c.notified = false → s.receiver.before accepted c ≤ s.receiver.told V .sync
    | none => True
  | _ => True

structure OwnInv (P : Lts σ (PollerLabel M ℓ)) (V : PollerView σ R E)
    (accepted : σ → List (Request M)) (s : CallersState (ServedState σ R E B)) : Prop where
  poller : P.Reachable s.receiver.poller
  heard : s.receiver.heard ≤ (V.stx s.receiver.poller).length
  queued : Queued s.flushed s.calls
  since : ∀ c ∈ s.calls, c.since ≤ (accepted s.receiver.poller).length
  own : ∀ c ∈ s.calls, c.notified = true ∨ c.stage = .returned →
    s.receiver.before accepted c < s.receiver.told V c.kind

variable {s s' : CallersState (ServedState σ R E B)} {l : CallersLabel (ServedLabel M ℓ)}

omit [StdSyncSendError E] in
theorem OwnInv.covered (hT : AnswersInTurn P V accepted) (h : OwnInv P V accepted s) :
    Covered V accepted s := by
  intro c hc hstage
  have hown := h.own c hc (.inr hstage)
  have hle : s.receiver.told V c.kind ≤ told c.kind (V.stx s.receiver.poller) :=
    told_take_le _ _
  exact exists_answered (Nat.lt_of_lt_of_le hown hle) (told_le_asked (hT _ h.poller) _)

omit [StdSyncSendError E] in
/-- A call moves on, with a notification only where it has one or is given its own. -/
theorem OwnInv.set (h : OwnInv P V accepted s) {i : ℕ} {c c' : Caller} {n : Notify ℕ}
    (hi : s.calls[i]? = some c) (hqueued : Queued n (s.calls.set i c'))
    (hkind : c'.kind = c.kind) (hsince : c'.since = c.since)
    (hown : c'.notified = true ∨ c'.stage = .returned →
      (c.notified = true ∨ c.stage = .returned)
        ∨ s.receiver.before accepted c < s.receiver.told V c.kind) :
    OwnInv P V accepted ⟨s.receiver, n, s.calls.set i c'⟩ := by
  have hmem := List.mem_of_getElem? hi
  refine ⟨h.poller, h.heard, hqueued, fun x hx => ?_, fun x hx hgot => ?_⟩
  · rcases List.mem_or_eq_of_mem_set hx with hx | rfl
    · exact h.since x hx
    · exact hsince ▸ h.since c hmem
  · rcases List.mem_or_eq_of_mem_set hx with hx | rfl
    · exact h.own x hx hgot
    · have hlt := (hown hgot).elim (h.own c hmem) id
      simpa [ServedState.before, hkind, hsince] using hlt

/-- The receiver takes a step; what was accepted before a call began stays. -/
theorem OwnInv.receiver (hP : Counted P V accepted load Inv) (h : OwnInv P V accepted s)
    {l : ServedLabel M ℓ} {r : ServedState σ R E B}
    (hs : s.receiver.step intoBoxed P V l = some r) :
    OwnInv P V accepted { s with receiver := r }
      ∧ (∀ c ∈ s.calls, r.before accepted c = s.receiver.before accepted c)
      ∧ ∀ kind, r.told V kind = s.receiver.told V kind
        + if (servedView intoBoxed V accepted).rings s.receiver l = some kind then 1 else 0 := by
  have haccepted := hP.accepted_serve hs
  obtain ⟨hheard, htold⟩ := hP.told_serve h.heard hs
  have hbefore : ∀ c ∈ s.calls, r.before accepted c = s.receiver.before accepted c := by
    intro c hc
    simp only [ServedState.before]
    rw [haccepted, List.take_append_of_le_length (h.since c hc)]
  refine ⟨⟨?_, hheard, h.queued, fun c hc => ?_, fun c hc hc' => ?_⟩, hbefore, htold⟩
  · exact reachable_serve h.poller hs
  · have := h.since c hc
    show c.since ≤ (accepted r.poller).length
    rw [haccepted, List.length_append]
    omega
  · have hown := h.own c hc hc'
    have hgrow := htold c.kind
    show r.before accepted c < r.told V c.kind
    rw [hbefore c hc]
    omega

theorem ownInv_step (hP : Counted P V accepted load Inv) (h : OwnInv P V accepted s)
    (hs : (servedCallers intoBoxed limit P V accepted).step s l = some s')
    (hC : s.Matched intoBoxed V accepted l) : OwnInv P V accepted s' := by
  have hqueued := queued_step h.queued hs
  cases move hs with
  | start kind =>
    refine ⟨h.poller, h.heard, hqueued, fun c hc => ?_, fun c hc => ?_⟩
    · rcases List.mem_append.1 hc with hc | hc
      · exact h.since c hc
      · obtain rfl := List.mem_singleton.1 hc
        exact Nat.le_refl _
    · rcases List.mem_append.1 hc with hc | hc
      · exact h.own c hc
      · obtain rfl := List.mem_singleton.1 hc
        simp
  | @push i since kind notified receiver hi hstep =>
    change s.receiver.step intoBoxed P V (.push (.action kind.action)) = some receiver at hstep
    obtain ⟨hr, -, -⟩ := h.receiver hP hstep
    exact hr.set hi hqueued rfl rfl fun hc => .inl (by simpa using hc)
  | refuse hi => exact h.set hi hqueued rfl rfl fun hc => .inl (by simpa using hc)
  | take hi hp => exact h.set hi hqueued rfl rfl fun _ => .inr (hC _ hi rfl hp)
  | park hi hp => exact h.set hi hqueued rfl rfl fun hc => .inl (by simpa using hc)
  | @pollSync i since notified hi =>
    refine h.set hi hqueued rfl rfl fun hc => .inl ?_
    cases notified <;> simp at hc ⊢
  | resume hi => exact h.set hi hqueued rfl rfl fun _ => .inl (.inl rfl)
  | quiet receiver hcalls hstep hrings => exact (h.receiver hP hstep).1
  | store receiver hcalls hstep hrings hw =>
    obtain ⟨hr, -, -⟩ := h.receiver hP hstep
    exact ⟨hr.poller, hr.heard, hqueued, hr.since, hr.own⟩
  | wake receiver w ws hcalls hstep hrings hw =>
    obtain ⟨hr, hbefore, htold⟩ := h.receiver hP hstep
    obtain ⟨since, hi, hset⟩ := h.queued.modify_head hw
    simp only [hset] at hqueued ⊢
    simp only [Matched, hrings] at hC
    have hmatched := hC w _ (by rw [hw]; rfl) hi
    have hmore := htold .flush
    rw [if_pos hrings] at hmore
    refine hr.set hi hqueued rfl rfl fun _ => .inr ?_
    show receiver.before accepted _ < receiver.told V .flush
    rw [hbefore _ (List.mem_of_getElem? hi)]
    omega
  | all receiver hcalls hstep hrings =>
    obtain ⟨hr, hbefore, htold⟩ := h.receiver hP hstep
    simp only [Matched, hrings] at hC
    have hmore := htold .sync
    rw [if_pos hrings] at hmore
    refine ⟨hr.poller, hr.heard, hqueued, fun c hc => ?_, fun c hc hgot => ?_⟩ <;>
      obtain ⟨c, hmem, rfl⟩ := List.mem_map.1 hc
    · simpa using hr.since c hmem
    · have hbefore' : receiver.before accepted c.notifySync = receiver.before accepted c := by
        simp [ServedState.before]
      show receiver.before accepted _ < receiver.told V _
      rw [hbefore', Caller.kind_notifySync]
      rcases c.notified_of_notifySync hgot with hold | ⟨hkind, hreturned, hrefused, hnew⟩
      · exact hr.own c hmem hold
      · have hmatched := hC c hmem hkind hreturned hrefused hnew
        rw [hbefore c hmem, hkind]
        omega

theorem always_covered (hP : Counted P V accepted load Inv) (hT : AnswersInTurn P V accepted)
    {ls : List (CallersLabel (ServedLabel M ℓ))}
    (h : (servedCallers intoBoxed limit P V accepted).Throughout (Matched intoBoxed V accepted)
      ls) :
    (servedCallers intoBoxed limit P V accepted).Always (Covered V accepted) ls := by
  refine Lts.alwaysFrom_of_throughoutFrom (J := OwnInv P V accepted) (fun _ => OwnInv.covered hT)
    (fun _ _ _ hs => ownInv_step hP hs) ?_ h
  refine ⟨.start, Nat.zero_le _, queued_start, ?_, ?_⟩
  · exact List.forall_mem_nil _
  · exact List.forall_mem_nil _

end CallersState

end Served

open CallersState

/-- For both unbatched receivers, in a run that gives every notification for an action of the call's
own, no call of `flush` or `sync` returns before such an action is answered. -/
theorem covered_of_matched {ι B H M R E : Type} [DecidableEq ι] [StdSyncSendError E]
    {Mi Ri Ei : ι → Type} [∀ i, StdSyncSendError (Ei i)] (limit : UInt64) (intoBoxed : R → B) :
    (∀ cfg ls, (servedCallers intoBoxed limit (bufferUnorderedPoller M R E cfg)
        BufferUnordered.view BufferUnordered.accepted).Throughout
          (Matched intoBoxed BufferUnordered.view BufferUnordered.accepted) ls →
      (servedCallers intoBoxed limit (bufferUnorderedPoller M R E cfg)
        BufferUnordered.view BufferUnordered.accepted).Always
          (Covered BufferUnordered.view BufferUnordered.accepted) ls)
    ∧ ∀ (f : SynchronizedHandler Mi Ri Ei H) h₀ i (intoBoxed : Ri i → B) ls,
      (servedCallers intoBoxed limit (synchronizedPoller f h₀ i)
        (SynchronizedItem.view i) fun s => (s.subs i).accepted).Throughout
          (Matched intoBoxed (SynchronizedItem.view i) fun s => (s.subs i).accepted) ls →
      (servedCallers intoBoxed limit (synchronizedPoller f h₀ i)
        (SynchronizedItem.view i) fun s => (s.subs i).accepted).Always
          (Covered (SynchronizedItem.view i) fun s => (s.subs i).accepted) ls :=
  ⟨fun cfg _ => always_covered (BufferUnordered.counted cfg) (BufferUnordered.answersInTurn cfg),
    fun f h₀ i _ _ => always_covered (SynchronizedItem.counted f h₀ i)
      (SynchronizedItem.answersInTurn f h₀ i)⟩

/-- Two calls of `flush` and one of `sync`, each parked before its event is handled. -/
theorem covered_of_matched_three_calls : (servedCallers (id : Unit → Unit) 1
    (bufferUnorderedPoller Unit Unit GenericError ⟨1⟩) BufferUnordered.view
    BufferUnordered.accepted).Always (Covered BufferUnordered.view BufferUnordered.accepted)
    [.start .flush, .push 0, .poll 0, .start .flush, .push 1, .poll 1, .start .sync, .push 2,
      .step (.run .recv), .step (.run .acquire), .step .turn, .resume 0, .poll 2,
      .step (.run .recv), .step (.run .acquire), .step .turn, .resume 1,
      .step (.run .recv), .step (.run .acquire), .step (.run (.syncDone (.ok ()))), .step .turn,
      .resume 2] := by
  refine (@covered_of_matched Unit Unit Unit Unit Unit GenericError _ _
    (fun _ => Unit) (fun _ => Unit) (fun _ => GenericError) _ 1 id).1 _ _ ?_
  unfold Lts.Throughout
  iterate 22
    refine .cons (by rfl) ?_ ?_
    · first
      | exact trivial
      | exact fun _ _ _ hpermit => absurd hpermit (by decide)
      | exact fun w c hw hc => by cases hw; cases hc; decide
      | exact fun c hc hkind => by
          rcases hc with - | ⟨-, - | ⟨-, - | ⟨-, hc⟩⟩⟩
          · cases hkind
          · cases hkind
          · exact fun _ _ _ => by decide
          · cases hc
  exact trivial

/-- A call that begins behind a `Flush` or a `Sync` of another, before the event of that is handled:
it is woken for it, and returns while its own action is still in the queue. -/
theorem returns_for_action_of_another :
    (¬ (servedCallers (id : Unit → Unit) 1 (bufferUnorderedPoller Unit Unit GenericError ⟨1⟩)
        BufferUnordered.view BufferUnordered.accepted).Always
        (Covered BufferUnordered.view BufferUnordered.accepted)
      [.start .flush, .push 0, .step (.run .recv), .step (.run .acquire), .start .flush, .push 1,
        .poll 1, .step .turn, .resume 1])
    ∧ ¬ (servedCallers (id : Unit → Unit) 1 (bufferUnorderedPoller Unit Unit GenericError ⟨1⟩)
        BufferUnordered.view BufferUnordered.accepted).Always
        (Covered BufferUnordered.view BufferUnordered.accepted)
      [.start .sync, .push 0, .step (.run .recv), .step (.run .acquire),
        .step (.run (.syncDone (.ok ()))), .start .sync, .step .turn, .push 1, .poll 1] := by
  constructor
  · intro h
    have hcovered : ∃ j, 1 ≤ j ∧ Answered .flush
        ([.action .flush, .action .flush] : List (Request Unit))
        ([.flushed] : List (Event Unit GenericError)) j :=
      h.last rfl ⟨.flush, 1, .returned, true⟩ (by decide) rfl
    exact not_answered_second hcovered
  · intro h
    have hcovered : ∃ j, 1 ≤ j ∧ Answered .sync
        ([.action .sync, .action .sync] : List (Request Unit))
        ([.synchronized (.ok ())] : List (Event Unit GenericError)) j :=
      h.last rfl ⟨.sync, 1, .returned, true⟩ (by decide) rfl
    exact not_answered_second hcovered

end MessageBus
