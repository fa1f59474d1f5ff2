import MessageBus.Proofs.Closers
import MessageBus.Proofs.FlushCallers
import MessageBus.Proofs.OwnAction

/-!
# Callers of `flush` and `sync` come back

A poller that is left alone answers every `Flush` and `Sync` it has accepted (`Responsive`), and the
event loop handles the answers. A caller of `sync` has its `Notified` before it pushes, so the
answer to its own `Sync` reaches it. A `Flushed` that is handled while a notification is stored
already goes lost (`lostFlushed`), and for each of those one caller of `flush` waits for good: no
more and no fewer (`Balance`).
-/

namespace MessageBus

/-- The calls of `flush` that wait are in line, and nobody is while a notification is stored. -/
structure Lined (n : Notify ℕ) (calls : List Caller) : Prop where
  waits : ∀ i since, calls[i]? = some ⟨.flush, since, .parked, false⟩ → i ∈ n.waiters
  spare : n.permit = true → n.waiters = []

/-- A call moves on, and does not wait now. -/
theorem Lined.set {n : Notify ℕ} {calls : List Caller} (h : Lined n calls) (i : ℕ) {c : Caller}
    (hc : ¬ (c.kind = .flush ∧ c.stage = .parked ∧ c.notified = false)) :
    Lined n (calls.set i c) where
  waits j since hj := by
    rw [List.getElem?_set] at hj
    split_ifs at hj with hij hlt
    · rw [Option.some.inj hj] at hc
      exact absurd ⟨rfl, rfl, rfl⟩ hc
    · exact h.waits j since hj
  spare := h.spare

namespace CallersState

section Balance

variable {σ ℓ : Type} {R : Lts σ ℓ} {V : CallersView σ ℓ} {pushed handled : σ → ℕ} {Inv : σ → Prop}
  {s s' : CallersState σ} {l : CallersLabel ℓ}

/-- A `Flushed` handled while a notification is stored. -/
def loses (V : CallersView σ ℓ) (s : CallersState σ) : CallersLabel ℓ → Bool
  | .step l => V.rings s.receiver l = some .flush && s.flushed.permit
  | _ => false

/-- Each `Flush` pushed is a call's that is served or waits, and each `Flushed` handled has served a
call, is stored or went lost. -/
structure Balance (pushed handled lost : ℕ) (s : CallersState σ) : Prop where
  pushed : s.calls.countP Caller.served + s.calls.countP Caller.waiting = pushed
  handled : s.calls.countP Caller.served + (if s.flushed.permit then 1 else 0) + lost = handled

/-- A call moves on, and the stored notification with it. -/
theorem Balance.update {a b lost : ℕ} (h : Balance a b lost s) {i : ℕ} {c c' : Caller}
    {n : Notify ℕ} {receiver : σ} (hi : s.calls[i]? = some c) (a' b' : ℕ)
    (ha : a' + (if c.served then 1 else 0) + (if c.waiting then 1 else 0)
      = a + (if c'.served then 1 else 0) + if c'.waiting then 1 else 0)
    (hb : b' + (if s.flushed.permit then 1 else 0) + (if c.served then 1 else 0)
      = b + (if n.permit then 1 else 0) + if c'.served then 1 else 0) :
    Balance a' b' lost (⟨receiver, n, s.calls.set i c'⟩ : CallersState σ) := by
  have hserved := Pool.countP_set_add (q := Caller.served) (b := c') hi
  have hwaiting := Pool.countP_set_add (q := Caller.waiting) (b := c') hi
  have h1 := h.pushed
  have h2 := h.handled
  exact ⟨by dsimp only; omega, by dsimp only; omega⟩

theorem lined_step (hqueued : Queued s.flushed s.calls) (h : Lined s.flushed s.calls)
    (hs : s.step R V l = some s') : Lined s'.flushed s'.calls := by
  cases move hs with
  | start kind =>
    refine ⟨fun i since hi => ?_, h.spare⟩
    rw [List.getElem?_append] at hi
    split_ifs at hi
    · exact h.waits i since hi
    · cases List.mem_singleton.1 (List.mem_of_getElem? hi)
  | push receiver hi => exact h.set _ (by simp)
  | refuse hi => exact h.set _ (by simp)
  | @take i since notified hi hp =>
    have hset : Lined s.flushed (s.calls.set i ⟨.flush, since, .returned, notified⟩) :=
      h.set i (by simp)
    exact ⟨hset.waits, by rintro ⟨⟩⟩
  | park hi hp =>
    refine ⟨fun j since hj => ?_, fun hpermit => ?_⟩
    · rw [List.getElem?_set] at hj
      split_ifs at hj with hij
      · exact List.mem_append_right _ (List.mem_singleton.2 hij.symm)
      · exact List.mem_append_left _ (h.waits j since hj)
    · rw [hp] at hpermit
      cases hpermit
  | pollSync hi => exact h.set _ (by simp)
  | resume hi => exact h.set _ (by simp)
  | quiet receiver => exact h
  | store receiver hcalls hstep hrings hw => exact ⟨h.waits, fun _ => hw⟩
  | wake receiver w ws hcalls hstep hrings hw =>
    obtain ⟨since', hi, hset⟩ := hqueued.modify_head hw
    refine ⟨fun j since hj => ?_, fun hpermit => ?_⟩
    · simp only [hset, List.getElem?_set] at hj
      split_ifs at hj with hij hlt
      · simp at hj
      · have := h.waits j since hj
        rw [hw, List.mem_cons] at this
        exact this.resolve_left (Ne.symm hij)
    · have := h.spare hpermit
      rw [hw] at this
      cases this
  | all receiver =>
    refine ⟨fun j since hj => ?_, h.spare⟩
    rw [List.getElem?_map, Option.map_eq_some_iff] at hj
    obtain ⟨c, hc, heq⟩ := hj
    have hkept := Caller.notifySync_of_flush (c := c) (by rw [heq])
    rw [hkept] at heq
    exact h.waits j since (by rw [hc, heq])

theorem balance_step (hR : FlushCount R V pushed handled Inv) (hinv : Inv s.receiver)
    (hqueued : Queued s.flushed s.calls) (hlined : Lined s.flushed s.calls) {lost : ℕ}
    (h : Balance (pushed s.receiver) (handled s.receiver) lost s) (hs : s.step R V l = some s') :
    Balance (pushed s'.receiver) (handled s'.receiver) (lost + if s.loses V l then 1 else 0)
      s' := by
  cases move hs with
  | start kind =>
    refine ⟨?_, ?_⟩
    · simpa [Caller.served, Caller.waiting] using h.pushed
    · simpa [Caller.served, loses] using h.handled
  | push receiver hi hstep =>
    obtain ⟨-, hpushed, hhandled⟩ := hR.push _ _ _ hinv hstep
    refine h.update hi _ _ ?_ ?_
    · simpa [Caller.served, Caller.waiting] using hpushed
    · simp [Caller.served, hhandled]
  | refuse hi =>
    refine h.update hi _ _ ?_ ?_ <;> simp [Caller.served, Caller.waiting]
  | take hi hp =>
    refine h.update hi _ _ ?_ ?_
    · simp [Caller.served, Caller.waiting]
    · simp [Caller.served, hp]
  | park hi hp =>
    obtain rfl := hqueued.unparked _ (List.mem_of_getElem? hi) rfl (.inr rfl)
    refine h.update hi _ _ ?_ ?_ <;> simp [Caller.served, Caller.waiting]
  | pollSync hi =>
    refine h.update hi _ _ ?_ ?_ <;> simp [Caller.served, Caller.waiting]
  | resume hi =>
    refine h.update hi _ _ ?_ ?_ <;> simp [Caller.served, Caller.waiting]
  | quiet receiver hcalls hstep hrings =>
    obtain ⟨-, hpushed, hhandled⟩ := hR.step _ _ _ hinv hcalls hstep
    rw [if_neg (by simp [hrings])] at hhandled
    refine ⟨h.pushed.trans hpushed.symm, ?_⟩
    simpa [loses, hrings, hhandled] using h.handled
  | store receiver hcalls hstep hrings hw =>
    obtain ⟨-, hpushed, hhandled⟩ := hR.step _ _ _ hinv hcalls hstep
    have hold := h.handled
    rw [if_pos hrings] at hhandled
    refine ⟨h.pushed.trans hpushed.symm, ?_⟩
    simp only [loses, hrings, decide_true, Bool.true_and, if_true]
    omega
  | wake receiver w ws hcalls hstep hrings hw =>
    obtain ⟨-, hpushed, hhandled⟩ := hR.step _ _ _ hinv hcalls hstep
    obtain ⟨since, hi, hset⟩ := hqueued.modify_head hw
    have hpermit : s.flushed.permit = false := by
      by_contra hp
      have hnone := hlined.spare (by simpa using hp)
      rw [hw] at hnone
      cases hnone
    rw [if_pos hrings] at hhandled
    simp only [hset, loses, hpermit, Bool.and_false, Bool.false_eq_true, if_false, Nat.add_zero]
    refine h.update hi _ _ ?_ ?_
    · simp [Caller.served, Caller.waiting, hpushed]
    · simp [Caller.served, hhandled, hpermit]
  | all receiver hcalls hstep hrings =>
    obtain ⟨-, hpushed, hhandled⟩ := hR.step _ _ _ hinv hcalls hstep
    rw [if_neg (by simp [hrings])] at hhandled
    refine ⟨?_, ?_⟩
    · simpa [List.countP_map, Function.comp_def, hpushed] using h.pushed
    · simpa [List.countP_map, Function.comp_def, loses, hrings, hhandled] using h.handled

end Balance

end CallersState

section Responsive

variable {M R E B σ ℓ : Type} [StdSyncSendError E]

/-- A closable poller that, left alone, has answered every `Flush` and `Sync` it has accepted where
it stops, unless its loop has panicked. -/
structure Responsive (P : Lts σ (PollerLabel M ℓ)) (V : PollerView σ R E)
    (accepted : σ → List (Request M)) (load : σ → ℕ) (own : ℓ → Bool) (work : σ → ℕ)
    (Inv : σ → Prop) (aborted : σ → Prop) : Prop
    extends Closable P V accepted load own work Inv where
  action : ∀ s (kind : BarrierKind) s', P.step s (.push (.action kind.action)) = some s' →
    work s' ≤ work s + 6
  behind : ∀ s, Inv s → ∀ kind, told kind (V.stx s) ≤ asked kind (accepted s)
  answers : ∀ s, Inv s → (∀ l, own l = true → P.step s (.run l) = none) → ¬ aborted s →
    ∀ kind, asked kind (accepted s) ≤ told kind (V.stx s)

/-- The call is over. -/
def Caller.over (c : Caller) : Bool := c.stage = .returned || c.stage = .refused

/-- A call of `sync` that has no notification has seen none of a `Sync` accepted since it began, and
past the push its own is among them. -/
structure Caller.Heard (V : PollerView σ R E) (accepted : σ → List (Request M))
    (s : ServedState σ R E B) (c : Caller) : Prop where
  since : c.since ≤ (accepted s.poller).length
  unheard : c.kind = .sync → c.over = false → c.notified = false →
    s.told V .sync ≤ asked .sync ((accepted s.poller).take c.since)
  asked : c.kind = .sync → c.stage = .pushed ∨ c.stage = .parked →
    asked .sync ((accepted s.poller).take c.since) < asked .sync (accepted s.poller)

/-- What a receiver and the callers of its `flush` and `sync` keep, `lost` of its `Flushed`s having
gone lost. -/
structure ReturnInv (V : PollerView σ R E) (accepted : σ → List (Request M)) (Inv : σ → Prop)
    (lost : ℕ) (s : CallersState (ServedState σ R E B)) : Prop where
  served : ServedInv V Inv s.receiver
  queued : Queued s.flushed s.calls
  lined : Lined s.flushed s.calls
  heard : ∀ c ∈ s.calls, c.Heard V accepted s.receiver
  balance : s.Balance (asked .flush (accepted s.receiver.poller)) (s.receiver.told V .flush) lost

/-- The steps a call has still to take, those for its action with them. -/
def CallerStage.work : CallerStage → ℕ
  | created => 15
  | pushed => 2
  | parked => 1
  | returned | refused => 0

def CallersState.work (V : PollerView σ R E) (work : σ → ℕ)
    (s : CallersState (ServedState σ R E B)) : ℕ :=
  s.receiver.work V work + (s.calls.map fun c => c.stage.work).sum

/-- The steps the receiver and the calls take by themselves. -/
def CallersLabel.own (own : ℓ → Bool) : CallersLabel (ServedLabel M ℓ) → Bool
  | .push _ | .poll _ | .resume _ => true
  | .step l => l.own own
  | .start _ => false

/-- Where in the stream the `Flushed` stands that a step of the callers loses, if it does. -/
def lostFlushed (intoBoxed : R → B) (V : PollerView σ R E) (accepted : σ → List (Request M))
    (s : CallersState (ServedState σ R E B)) (l : CallersLabel (ServedLabel M ℓ))
    (_ : CallersState (ServedState σ R E B)) : List ℕ :=
  if s.loses (servedView intoBoxed V accepted) l then [s.receiver.heard] else []

/-- Of a receiver around `P` and the callers of its `flush` and `sync`, beside the `Flushed`s that
went lost: left alone they stop, and unless the poller or the event loop has panicked every call of
`sync` is over by then, and of the calls of `flush` as many are not as `Flushed`s went lost. -/
def ComesBack (intoBoxed : R → B) (limit : UInt64) (P : Lts σ (PollerLabel M ℓ))
    (V : PollerView σ R E) (accepted : σ → List (Request M)) (own : ℓ → Bool) (work : σ → ℕ)
    (aborted : σ → Prop) : Prop :=
  ∀ s, ((servedCallers intoBoxed limit P V accepted).logged
      (lostFlushed intoBoxed V accepted)).Reachable s →
    ((servedCallers intoBoxed limit P V accepted).logged (lostFlushed intoBoxed V accepted)).Settles
      (CallersLabel.own own) (s.1.work V work)
      (fun t => t.1.receiver.loop ≠ .aborted → ¬ aborted t.1.receiver.poller →
        (∀ c ∈ t.1.calls, c.kind = .sync → c.over = true)
          ∧ t.1.calls.countP (fun c => c.kind = .flush && !c.over) = t.2.length) s

variable {intoBoxed : R → B} {limit : UInt64} {P : Lts σ (PollerLabel M ℓ)} {V : PollerView σ R E}
  {accepted : σ → List (Request M)} {load work : σ → ℕ} {own : ℓ → Bool} {Inv aborted : σ → Prop}
  {s s' : CallersState (ServedState σ R E B)} {l : CallersLabel (ServedLabel M ℓ)}

omit [StdSyncSendError E] in
/-- The receiver takes in more, and tells nothing to the callers of `sync`. -/
theorem Caller.Heard.serve {t t' : ServedState σ R E B} {c : Caller} (h : c.Heard V accepted t)
    (hacc : accepted t.poller <+: accepted t'.poller) (htold : t'.told V .sync = t.told V .sync) :
    c.Heard V accepted t' := by
  obtain ⟨items, hitems⟩ := hacc
  have htake : (accepted t'.poller).take c.since = (accepted t.poller).take c.since := by
    rw [← hitems, List.take_append_of_le_length h.since]
  refine ⟨?_, fun hk ho hn => ?_, fun hk hst => ?_⟩
  · rw [← hitems, List.length_append]
    exact Nat.le_add_right_of_le h.since
  · rw [htold, htake]
    exact h.unheard hk ho hn
  · have := h.asked hk hst
    rw [htake, ← hitems, asked_append]
    omega

omit [StdSyncSendError E] in
/-- A call that is notified, or over, or not of `sync`, has nothing to hear. -/
theorem Caller.Heard.congr {t : ServedState σ R E B} {c c' : Caller} (h : c.Heard V accepted t)
    (hkind : c'.kind = c.kind) (hsince : c'.since = c.since)
    (hunheard : c'.kind = .sync → c'.over = false → c'.notified = false →
      c.over = false ∧ c.notified = false)
    (hstage : c'.stage = .pushed ∨ c'.stage = .parked → c.stage = .pushed ∨ c.stage = .parked) :
    c'.Heard V accepted t := by
  refine ⟨hsince ▸ h.since, fun hk ho hn => ?_, fun hk hst => ?_⟩
  · obtain ⟨ho, hn⟩ := hunheard hk ho hn
    rw [hsince]
    exact h.unheard (hkind ▸ hk) ho hn
  · rw [hsince]
    exact h.asked (hkind ▸ hk) (hstage hst)

omit [StdSyncSendError E] in
/-- A call that is notified of a `Synchronized` has nothing to hear. -/
theorem Caller.Heard.notifySync {t t' : ServedState σ R E B} {c : Caller}
    (h : c.Heard V accepted t) (hacc : accepted t.poller <+: accepted t'.poller) :
    c.notifySync.Heard V accepted t' := by
  obtain ⟨items, hitems⟩ := hacc
  have htake : (accepted t'.poller).take c.since = (accepted t.poller).take c.since := by
    rw [← hitems, List.take_append_of_le_length h.since]
  refine ⟨?_, fun hk ho hn => ?_, fun hk hst => ?_⟩
  · rw [since_notifySync, ← hitems, List.length_append]
    exact Nat.le_add_right_of_le h.since
  · obtain ⟨_ | _, since, stage, notified⟩ := c
    · cases hk
    · cases stage <;> simp [Caller.notifySync, notify, Caller.over] at ho hn
  · obtain ⟨_ | _, since, stage, notified⟩ := c
    · cases hk
    · have hst : stage = .pushed ∨ stage = .parked := by
        simpa [Caller.notifySync, stage_notify] using hst
      have := h.asked rfl hst
      rw [since_notifySync, htake, ← hitems, asked_append]
      omega

theorem heard_step (hP : Responsive P V accepted load own work Inv aborted)
    (h : ServedInv V Inv s.receiver) (hqueued : Queued s.flushed s.calls)
    (hheard : ∀ c ∈ s.calls, c.Heard V accepted s.receiver)
    (hs : (servedCallers intoBoxed limit P V accepted).step s l = some s') :
    ∀ c ∈ s'.calls, c.Heard V accepted s'.receiver := by
  have hs : s.step (servedReceiver intoBoxed limit P V) (servedView intoBoxed V accepted) l
    = some s' := hs
  have hcall : ∀ {i : ℕ} {c : Caller}, s.calls[i]? = some c → c.Heard V accepted s.receiver :=
    fun hi => hheard _ (List.mem_of_getElem? hi)
  have hserve : ∀ {m : ServedLabel M ℓ} {t : ServedState σ R E B},
      s.receiver.step intoBoxed P V m = some t →
      (servedView intoBoxed V accepted).rings s.receiver m ≠ some .sync →
      ∀ c ∈ s.calls, c.Heard V accepted t := by
    intro m t ht hrings c hc
    refine (hheard c hc).serve ?_ ?_
    · rw [hP.toCounted.accepted_serve ht]
      exact List.prefix_append _ _
    · rw [(hP.toCounted.told_serve h.heard ht).2 .sync, if_neg hrings, Nat.add_zero]
  cases CallersState.move hs with
  | start kind =>
    rw [List.forall_mem_append, List.forall_mem_singleton]
    refine ⟨hheard, Nat.le_refl _, fun _ _ _ => ?_, by rintro - (⟨⟨⟩⟩ | ⟨⟨⟩⟩)⟩
    show s.receiver.told V .sync ≤ asked .sync ((accepted s.receiver.poller).take
      (accepted s.receiver.poller).length)
    rw [List.take_length]
    exact Nat.le_trans (told_take_le _ _) (hP.behind _ h.poller .sync)
  | @push i since kind notified t hi hstep =>
    have hstep : s.receiver.step intoBoxed P V (.push (.action kind.action)) = some t := hstep
    have hall := hserve hstep (by rw [rings_servedView (by rintro ⟨⟩)]; rintro ⟨⟩)
    have hold := hall _ (List.mem_of_getElem? hi)
    refine Pool.forall_mem_set hall i
      ⟨hold.since, fun hk _ hn => hold.unheard hk rfl hn, fun hk _ => ?_⟩
    obtain rfl : kind = .sync := hk
    -- Its own `Sync` is the last of the items.
    have hacc := hP.toCounted.accepted_serve hstep
    have hsince : since ≤ (accepted s.receiver.poller).length := (hcall hi).since
    show asked .sync ((accepted t.poller).take since) < asked .sync (accepted t.poller)
    rw [hacc, List.take_append_of_le_length hsince, asked_append]
    have hle : asked .sync ((accepted s.receiver.poller).take since)
        ≤ asked .sync (accepted s.receiver.poller) :=
      (((List.take_prefix _ _).filterMap _).sublist).count_le _
    have hone : asked .sync (ServedLabel.items
        (.push (.action BarrierKind.sync.action) : ServedLabel M ℓ)) = 1 := rfl
    omega
  | refuse hi =>
    exact Pool.forall_mem_set hheard _
      ((hcall hi).congr rfl rfl (by rintro - ⟨⟩) (by rintro (⟨⟨⟩⟩ | ⟨⟨⟩⟩)))
  | take hi =>
    exact Pool.forall_mem_set hheard _
      ((hcall hi).congr rfl rfl (by rintro ⟨⟩) (by rintro (⟨⟨⟩⟩ | ⟨⟨⟩⟩)))
  | park hi =>
    exact Pool.forall_mem_set hheard _ ((hcall hi).congr rfl rfl (by rintro ⟨⟩) fun _ => .inl rfl)
  | @pollSync i since notified hi =>
    refine Pool.forall_mem_set hheard _
      ((hcall hi).congr rfl rfl (fun _ _ hn => ⟨rfl, hn⟩) fun _ => .inl rfl)
  | resume hi =>
    exact Pool.forall_mem_set hheard _
      ((hcall hi).congr rfl rfl (by rintro - ⟨⟩) (by rintro (⟨⟨⟩⟩ | ⟨⟨⟩⟩)))
  | quiet t hcalls hstep hrings => exact hserve hstep (by rw [hrings]; rintro ⟨⟩)
  | store t hcalls hstep hrings => exact hserve hstep (by rw [hrings]; rintro ⟨⟩)
  | wake t w ws hcalls hstep hrings hw =>
    have hall := hserve hstep (by rw [hrings]; rintro ⟨⟩)
    obtain ⟨since, hi, hset⟩ := hqueued.modify_head hw
    have hold := hall _ (List.mem_of_getElem? hi)
    simp only [hset]
    exact Pool.forall_mem_set hall w (hold.congr rfl rfl (by rintro ⟨⟩) fun _ => .inr rfl)
  | all t hcalls hstep hrings =>
    have hacc : accepted s.receiver.poller <+: accepted t.poller := by
      rw [hP.toCounted.accepted_serve hstep]
      exact List.prefix_append _ _
    intro c hc
    obtain ⟨c, hmem, rfl⟩ := List.mem_map.1 hc
    exact (hheard c hmem).notifySync hacc

/-- What a step of the callers does to their receiver. -/
theorem receiver_cases (hs : (servedCallers intoBoxed limit P V accepted).step s l = some s') :
    s'.receiver = s.receiver ∨ ∃ m, s.receiver.step intoBoxed P V m = some s'.receiver := by
  have hs : s.step (servedReceiver intoBoxed limit P V) (servedView intoBoxed V accepted) l
    = some s' := hs
  cases CallersState.move hs with
  | push t _ hstep => exact .inr ⟨.push (.action _), hstep⟩
  | quiet t _ hstep | store t _ hstep | wake t _ _ _ hstep | all t _ hstep =>
    exact .inr ⟨_, hstep⟩
  | _ => exact .inl rfl

theorem returnInv_step (hP : Responsive P V accepted load own work Inv aborted) {lost : ℕ}
    (h : ReturnInv V accepted Inv lost s)
    (hs : (servedCallers intoBoxed limit P V accepted).step s l = some s') :
    ReturnInv V accepted Inv
      (lost + if s.loses (servedView intoBoxed V accepted) l then 1 else 0) s' := by
  refine ⟨?_, CallersState.queued_step h.queued hs, CallersState.lined_step h.queued h.lined hs,
    heard_step hP h.served h.queued h.heard hs, ?_⟩
  · rcases receiver_cases hs with heq | ⟨m, hm⟩
    · rw [heq]
      exact h.served
    · exact servedInv_step hP.toClosable h.served hm
  · exact CallersState.balance_step (hP.toCounted.flushCount intoBoxed limit) h.served.heard
      h.queued h.lined h.balance hs

/-- Every step of its own takes from the work. -/
theorem return_work (hP : Responsive P V accepted load own work Inv aborted)
    (h : ServedInv V Inv s.receiver) (hqueued : Queued s.flushed s.calls)
    (hl : l.own own = true)
    (hs : (servedCallers intoBoxed limit P V accepted).step s l = some s') :
    s'.work V work < s.work V work := by
  have hs : s.step (servedReceiver intoBoxed limit P V) (servedView intoBoxed V accepted) l
    = some s' := hs
  have hset : ∀ {i : ℕ} {c : Caller} (c' : Caller), s.calls[i]? = some c →
      ((s.calls.set i c').map fun c => c.stage.work).sum + c.stage.work
        = (s.calls.map fun c => c.stage.work).sum + c'.stage.work := fun c' hi =>
    Pool.sum_map_set_add (fun c : Caller => c.stage.work) c' hi
  cases CallersState.move hs with
  | start kind => cases hl
  | @push i since kind notified t hi hstep =>
    have hcalls := hset ⟨kind, since, .pushed, notified⟩ hi
    obtain ⟨p, hp, rfl⟩ := Option.map_eq_some_iff.1 hstep
    have hwork := hP.action _ _ _ hp
    have hstx := (hP.push _ _ _ hp).2
    simp only [CallersState.work, ServedState.work, hstx, CallerStage.work] at hcalls ⊢
    omega
  | @refuse i since kind notified hi =>
    have hcalls := hset ⟨kind, since, .refused, notified⟩ hi
    simp only [CallersState.work, CallerStage.work] at hcalls ⊢
    omega
  | @take i since notified hi =>
    have hcalls := hset ⟨.flush, since, .returned, notified⟩ hi
    simp only [CallersState.work, CallerStage.work] at hcalls ⊢
    omega
  | @park i since notified hi =>
    have hcalls := hset ⟨.flush, since, .parked, notified⟩ hi
    simp only [CallersState.work, CallerStage.work] at hcalls ⊢
    omega
  | @pollSync i since notified hi =>
    have hcalls := hset ⟨.sync, since, if notified then .returned else .parked, notified⟩ hi
    cases notified <;> simp only [CallersState.work, CallerStage.work, Bool.false_eq_true,
      if_true, if_false] at hcalls ⊢ <;> omega
  | @resume i since kind hi =>
    have hcalls := hset ⟨kind, since, .returned, true⟩ hi
    simp only [CallersState.work, CallerStage.work] at hcalls ⊢
    omega
  | quiet t _ hstep | store t _ hstep =>
    have := served_work hP.toClosable h hl hstep
    simp only [CallersState.work]
    omega
  | wake t w ws _ hstep _ hw =>
    have := served_work hP.toClosable h hl hstep
    obtain ⟨since, hi, heq⟩ := hqueued.modify_head hw
    have hcalls := hset ⟨.flush, since, .parked, true⟩ hi
    simp only [CallersState.work, heq] at hcalls ⊢
    omega
  | all t _ hstep =>
    have := served_work hP.toClosable h hl hstep
    have hcalls : ((s.calls.map Caller.notifySync).map fun c => c.stage.work)
        = s.calls.map fun c => c.stage.work := by
      rw [List.map_map]
      refine List.map_congr_left fun c _ => ?_
      rw [Function.comp_apply, Caller.notifySync]
      split_ifs
      · rw [Caller.stage_notify]
      · rfl
    simp only [CallersState.work, hcalls]
    omega

/-- Where the receiver and the calls stop, the loop has handled the answer to every `Flush` and
`Sync`. -/
theorem told_of_quiet (hP : Responsive P V accepted load own work Inv aborted)
    {t : ServedState σ R E B} (h : ServedInv V Inv t)
    (hq : ∀ l : ServedLabel M ℓ, l.own own = true → t.step intoBoxed P V l = none)
    (hloop : t.loop ≠ .aborted) (hpoller : ¬ aborted t.poller) (kind : BarrierKind) :
    asked kind (accepted t.poller) ≤ t.told V kind := by
  obtain ⟨hquiet, hheard⟩ := heard_of_quiet h hq
  have hanswers := hP.answers _ h.poller hquiet hpoller kind
  rwa [ServedState.told, hheard hloop, List.take_length]

theorem return_rest (hP : Responsive P V accepted load own work Inv aborted) {lost : ℕ}
    (h : ReturnInv V accepted Inv lost s)
    (hq : (servedCallers intoBoxed limit P V accepted).Quiet (CallersLabel.own own) s)
    (hloop : s.receiver.loop ≠ .aborted) (hpoller : ¬ aborted s.receiver.poller) :
    (∀ c ∈ s.calls, c.kind = .sync → c.over = true)
      ∧ s.calls.countP (fun c => c.kind = .flush && !c.over) = lost := by
  have hno : ∀ l : CallersLabel (ServedLabel M ℓ), l.own own = true →
      s.step (servedReceiver intoBoxed limit P V) (servedView intoBoxed V accepted) l = none := hq
  have hserve : ∀ m : ServedLabel M ℓ, m.own own = true →
      s.receiver.step intoBoxed P V m = none := by
    intro m hm
    have hcalls : (servedView intoBoxed V accepted).calls m = false := by
      rw [calls_servedView]
      cases m <;> first | rfl | cases hm
    have := hno (.step m) hm
    simpa [CallersState.step, hcalls, servedReceiver] using this
  have htold := told_of_quiet hP h.served hserve hloop hpoller
  -- Whoever is not over is parked without a notification.
  have hparked : ∀ c ∈ s.calls, c.over = false → c.stage = .parked ∧ c.notified = false := by
    rintro ⟨kind, since, stage, notified⟩ hc hover
    obtain ⟨i, hi⟩ := List.getElem?_of_mem hc
    cases stage with
    | created =>
      have := hno (.push i) rfl
      simp only [CallersState.step, hi] at this
      split at this <;> cases this
    | pushed =>
      have := hno (.poll i) rfl
      cases kind <;> simp [CallersState.step, hi] at this
    | parked =>
      cases notified with
      | false => exact ⟨rfl, rfl⟩
      | true =>
        have := hno (.resume i) rfl
        simp [CallersState.step, hi] at this
    | returned | refused => cases hover
  constructor
  · intro c hc hkind
    by_contra hover
    have hover : c.over = false := by simpa using hover
    obtain ⟨hstage, hnotified⟩ := hparked c hc hover
    have hunheard := (h.heard c hc).unheard hkind hover hnotified
    have hasked := (h.heard c hc).asked hkind (.inr hstage)
    have := htold .sync
    omega
  · have hwaiting : s.calls.countP (fun c => c.kind = .flush && !c.over)
        = s.calls.countP Caller.waiting := by
      refine List.countP_congr fun c hc => ?_
      rcases hover : c.over with _ | _
      · obtain ⟨hstage, hnotified⟩ := hparked c hc hover
        simp [Caller.waiting, hstage, hnotified]
      · simp only [Caller.over, Bool.or_eq_true, decide_eq_true_eq] at hover
        rcases hover with hstage | hstage <;> simp [Caller.waiting, hstage]
    have hpushed := h.balance.pushed
    have hhandled := h.balance.handled
    have hle := htold .flush
    have hge : s.receiver.told V .flush ≤ asked .flush (accepted s.receiver.poller) :=
      Nat.le_trans (told_take_le _ _) (hP.behind _ h.served.poller .flush)
    rw [hwaiting]
    by_cases hnone : s.calls.countP Caller.waiting = 0
    · split_ifs at hhandled <;> omega
    · -- Whoever waits is in line, so that no notification is stored.
      obtain ⟨⟨kind, since, stage, notified⟩, hc, hw⟩ :=
        List.countP_pos_iff.1 (Nat.pos_of_ne_zero hnone)
      obtain ⟨i, hi⟩ := List.getElem?_of_mem hc
      have hkind : kind = .flush := by
        simp only [Caller.waiting, Bool.and_eq_true, decide_eq_true_eq] at hw
        exact hw.1
      have hover : Caller.over ⟨kind, since, stage, notified⟩ = false := by
        cases stage <;> simp [Caller.waiting, Caller.over] at hw ⊢
      obtain ⟨hstage, hnotified⟩ := hparked _ hc hover
      obtain rfl : stage = .parked := hstage
      obtain rfl : notified = false := hnotified
      have hline := h.lined.waits i since (by rw [hi, hkind])
      have hpermit : s.flushed.permit = false := by
        by_contra hp
        rw [h.lined.spare (by simpa using hp)] at hline
        cases hline
      rw [hpermit] at hhandled
      simp only [Bool.false_eq_true, if_false] at hhandled
      omega

theorem Responsive.comesBack (hP : Responsive P V accepted load own work Inv aborted)
    (intoBoxed : R → B) (limit : UInt64) :
    ComesBack intoBoxed limit P V accepted own work aborted := by
  intro s hs
  let J : CallersState (ServedState σ R E B) × List ℕ → Prop := fun s =>
    ReturnInv V accepted Inv s.2.length s.1
  have hstep : ∀ s l s', J s → ((servedCallers intoBoxed limit P V accepted).logged
      (lostFlushed intoBoxed V accepted)).step s l = some s' → J s' := by
    intro s l s' h hs
    obtain ⟨t, ht, rfl⟩ := Option.map_eq_some_iff.1 hs
    have hlost : (s.2 ++ lostFlushed intoBoxed V accepted s.1 l t).length
        = s.2.length + if s.1.loses (servedView intoBoxed V accepted) l then 1 else 0 := by
      rw [List.length_append, lostFlushed]
      split_ifs <;> rfl
    show ReturnInv V accepted Inv (s.2 ++ lostFlushed intoBoxed V accepted s.1 l t).length t
    rw [hlost]
    exact returnInv_step hP h ht
  have hstart : J ((servedCallers intoBoxed limit P V accepted).logged
      (lostFlushed intoBoxed V accepted)).start := by
    refine ⟨⟨hP.start, Nat.zero_le _, by rintro ⟨⟩⟩, ?_, ⟨?_, by rintro ⟨⟩⟩, List.forall_mem_nil _,
      ?_, rfl⟩
    · exact CallersState.queued_start (R := servedReceiver intoBoxed limit P V)
        (V := servedView intoBoxed V accepted)
    · rintro i since hi
      simp [Lts.logged, servedCallers, callers] at hi
    · show 0 = asked .flush (accepted P.start)
      rw [hP.fresh]
      rfl
  let W : CallersState (ServedState σ R E B) × List ℕ → ℕ := fun s => s.1.work V work
  show Lts.Settles _ _ (W s) _ s
  refine Lts.settles_of_work (J := J) (fun s l s' h hl hs => ⟨hstep s l s' h hs, ?_⟩)
    (fun s h hq => ?_) (Lts.invariant hstart hstep hs)
  · obtain ⟨t, ht, rfl⟩ := Option.map_eq_some_iff.1 hs
    exact return_work hP h.served h.queued hl ht
  · exact return_rest hP h fun l hl => by simpa [Lts.logged] using hq l hl

end Responsive

section Pollers

/-- A closable poller is closable as well with more that it keeps. -/
theorem Closable.and {M R E σ ℓ : Type} {P : Lts σ (PollerLabel M ℓ)} {V : PollerView σ R E}
    {accepted : σ → List (Request M)} {load work : σ → ℕ} {own : ℓ → Bool} {Inv Inv' : σ → Prop}
    (h : Closable P V accepted load own work Inv) (hstart : Inv' P.start)
    (hstep : ∀ s l s', Inv s → Inv' s → P.step s l = some s' → Inv' s') :
    Closable P V accepted load own work (fun s => Inv s ∧ Inv' s) where
  toCounted := h.toCounted.and hstart hstep
  close := h.close
  emits s l s' hs := h.emits s l s' hs.1
  less s l s' hs := h.less s l s' hs.1
  refuses s item hs := h.refuses s item hs.1
  gone s l s' hs := h.gone s l s' hs.1
  rest s hs := h.rest s hs.1

variable {M R E : Type}

/-- As many events of a kind as items where the kinds agree. -/
theorem asked_le_told {items : List (Request M)} {evs : List (Event R E)}
    (h : evs.filterMap Event.kind? = items.filterMap Request.kind?) (kind : BarrierKind) :
    asked kind items ≤ told kind evs := by
  rw [asked, told, h]

theorem kinds_of_marks {items : List (Request M)} {evs : List (Event R E)}
    (h : evs.filterMap Event.mark? = items.filterMap Request.mark?) :
    evs.filterMap Event.kind? = items.filterMap Request.kind? := by
  have hkinds := congrArg (List.filterMap Mark.kind?) h
  rw [List.filterMap_filterMap, List.filterMap_filterMap] at hkinds
  have hevs : ∀ ev : Event R E, (ev.mark?.bind Mark.kind?) = ev.kind? := fun ev => by
    cases ev <;> rfl
  have hitems : ∀ item : Request M, (item.mark?.bind Mark.kind?) = item.kind? := by
    rintro (a | ⟨mid, msg, req⟩)
    · cases a <;> rfl
    · rfl
  simpa only [hevs, hitems] using hkinds

namespace BufferUnordered

variable {cfg : BufferUnorderedConfig}

theorem responsive (hpos : 1 ≤ cfg.maxParallel) (hmax : cfg.maxParallel ≤ 2305843009213693951) :
    Responsive (bufferUnorderedPoller M R E cfg) view accepted load (fun _ => true) work
      (fun s => (Kept s ∧ Closes cfg s) ∧ InTurn s) (fun s => s.pc = .aborted) where
  toClosable := (closable hpos hmax).and
    (.of_owed (by simp [bufferUnorderedPoller, start, hmax, Pc.kind?]))
    fun _ _ _ _ h hs => inTurn_step h hs
  action s kind s' hs := by
    have hs : s.step cfg (.push (.action kind.action)) = some s' := hs
    cases move hs
    cases kind <;> simp only [work, List.map_append, List.map_cons, List.map_nil, List.sum_append,
      List.sum_singleton, itemWork, BarrierKind.action] <;> omega
  behind s h kind := by
    refine told_le_asked (h.2.order.trans ?_) kind
    rw [accepted, List.filterMap_append]
    exact List.prefix_append _ _
  answers s h hq habort kind := by
    have hq : (bufferUnorderedPoller M R E cfg).Quiet PollerLabel.own s := by
      rintro (item | l) hown
      · cases hown
      · exact hq l rfl
    have hrest := rested_of_quiet hpos h.1.2.guarded h.1.2.tracked hq
    refine asked_le_told ?_ kind
    have howed := h.2.owed habort
    rcases hrest.loop with ⟨hrx, ⟨hpc, -⟩ | hpc⟩ | hpc
    · simpa [accepted, hrx, hpc, Pc.kind?, view] using howed
    · simpa [accepted, hrx, hpc, Pc.kind?, view] using howed
    · exact absurd hpc habort

end BufferUnordered

namespace SynchronizedItem

variable {ι H : Type} [DecidableEq ι] [Fintype ι] {M R E : ι → Type}

theorem responsive (f : SynchronizedHandler M R E H) (h₀ : H) (i : ι) :
    Responsive (synchronizedPoller f h₀ i) (view i) (fun s => (s.subs i).accepted)
      (fun s => (s.subs i).load) ItemLabel.own work
      (fun s => (∀ i, (s.subs i).InOrder) ∧ Kept s
        ∧ ∀ i, (s.subs i).pc = .aborted → (s.subs i).closed = true)
      (fun s => (s.subs i).pc = .aborted) where
  toClosable := closable f h₀ i
  action s kind s' hs := by
    have hs : s.step f (.push i (.action kind.action)) = some s' := hs
    cases move hs
    refine Nat.le_trans (Nat.le_of_eq (work_push s (.action kind.action) rfl rfl)) ?_
    cases kind <;> simp [Subscription.itemWork, BarrierKind.action]
  behind s h kind := told_le_asked (h.1 i).kinds kind
  answers s h hq habort kind := by
    have hq : (synchronizedItem f h₀).Quiet ItemLabel.own s := by
      intro l hl
      cases l with
      | push => cases hl
      | _ => exact hq _ hl
    exact asked_le_told (kinds_of_marks
      (((rested_of_quiet h.2.1 hq i).answered (h.1 i)).all habort)) kind

end SynchronizedItem

namespace BatchCore

variable {c c' : BatchCore M R E} {held held' : Option BarrierKind} {aborted aborted' : Prop}

/-- The stream answers the actions of the calls in the order they were taken, all but the one in
hand, and no task has such an event. -/
structure InTurn (c : BatchCore M R E) (held : Option BarrierKind) (aborted : Prop) : Prop where
  order : c.stx.filterMap Event.kind? <+: c.taken.filterMap Request.kind?
  owed : ¬ aborted →
    c.stx.filterMap Event.kind? ++ held.toList = c.taken.filterMap Request.kind?
  unsent : ∀ t ∈ c.tasks, ∀ ev ∈ t.unsent, ev.kind? = none

/-- Actions are taken or answered, and the one in hand changes with them. -/
theorem InTurn.answer (h : c.InTurn held aborted) (hab : ¬ aborted) {items evs : List BarrierKind}
    (hstx : c'.stx.filterMap Event.kind? = c.stx.filterMap Event.kind? ++ evs)
    (htaken : c'.taken.filterMap Request.kind? = c.taken.filterMap Request.kind? ++ items)
    (heq : held.toList ++ items = evs ++ held'.toList)
    (hunsent : ∀ t ∈ c'.tasks, ∀ ev ∈ t.unsent, ev.kind? = none) : c'.InTurn held' aborted' := by
  have hkinds : c'.stx.filterMap Event.kind? ++ held'.toList
      = c'.taken.filterMap Request.kind? := by
    rw [hstx, htaken, ← h.owed hab, List.append_assoc, List.append_assoc, heq]
  exact ⟨hkinds ▸ List.prefix_append _ _, fun _ => hkinds, hunsent⟩

theorem kind_processBatchResult (resp : Except E (List R)) (mids : List (UInt64 × Bool)) :
    ∀ ev ∈ processBatchResult resp mids, ev.kind? = none := by
  unfold processBatchResult
  split
  · rename_i re
    induction mids, re using batchAnswers.induct <;> simp_all [batchAnswers, Event.kind?]
  · intro ev hev
    simp only [List.mem_append, List.mem_map, List.mem_singleton] at hev
    obtain ⟨_, -, rfl⟩ | rfl := hev <;> rfl

theorem InTurn.task (h : c.InTurn held aborted) (hs : TaskStep c c') : c'.InTurn held aborted := by
  have hset : ∀ (i : ℕ) (t : BatchTask M R E), (∀ ev ∈ t.unsent, ev.kind? = none) →
      ∀ t' ∈ c.tasks.set i t, ∀ ev ∈ t'.unsent, ev.kind? = none :=
    fun i _ => Pool.forall_mem_set h.unsent i
  rcases hs with hs | hs | hs | hs
  · obtain ⟨batch, -, rfl⟩ := startTask_eq_some hs
    exact ⟨h.order, h.owed, hset _ _ (List.forall_mem_nil _)⟩
  · obtain ⟨batch, -, rfl⟩ := finishTask_eq_some hs
    exact ⟨h.order, h.owed, hset _ _ (kind_processBatchResult _ _)⟩
  · obtain ⟨batch, ev, evs, hi, rfl⟩ := sendTask_eq_some hs
    have hold : ∀ ev' ∈ ev :: evs, ev'.kind? = none := h.unsent _ (List.mem_of_getElem? hi)
    rw [List.forall_mem_cons] at hold
    have hstx : (c.stx ++ [ev]).filterMap Event.kind? = c.stx.filterMap Event.kind? := by
      simp [hold.1]
    refine ⟨?_, fun hab => ?_, hset _ _ hold.2⟩
    · simp only [emit, hstx]
      exact h.order
    · simp only [emit, hstx]
      exact h.owed hab
  · obtain ⟨batch, -, rfl⟩ := panicTask_eq_some hs
    exact ⟨h.order, h.owed, hset _ _ (List.forall_mem_nil _)⟩

/-- Where nothing is in hand and the queue is empty, everything is answered. -/
theorem InTurn.answered (h : c.InTurn none aborted) (hab : ¬ aborted) (hrx : c.rx = []) :
    c.stx.filterMap Event.kind? = c.accepted.filterMap Request.kind? := by
  simpa [accepted, hrx] using h.owed hab

theorem InTurn.behind (h : c.InTurn held aborted) (kind : BarrierKind) :
    told kind c.stx ≤ asked kind c.accepted := by
  refine told_le_asked (h.order.trans ?_) kind
  rw [accepted, List.filterMap_append]
  exact List.prefix_append _ _

end BatchCore

namespace BufferUnorderedBatched

variable {cfg : BufferUnorderedBatchedConfig} {s s' : BufferUnorderedBatched M R E}

/-- The call whose action is in hand. -/
def pcKind? : BufferUnorderedPc M → Option BarrierKind
  | .flushAcquire _ | .flushAll => some .flush
  | .syncAll | .syncing => some .sync
  | _ => none

def InTurn (s : BufferUnorderedBatched M R E) : Prop :=
  s.core.InTurn (pcKind? s.pc) (s.pc = .aborted)

theorem inTurn_body (h : InTurn s) (hpc : s.pc = .recv) (item : Request M)
    (rx : List (Request M)) :
    InTurn (body cfg { s with core.rx := rx, core.taken := s.core.taken ++ [item] } item) := by
  have hrecv : pcKind? s.pc = none := by rw [hpc]; rfl
  have hkept : ∀ (t : BufferUnorderedBatched M R E) (evs : List BarrierKind),
      t.core.stx.filterMap Event.kind? = s.core.stx.filterMap Event.kind? ++ evs →
      t.core.taken = s.core.taken ++ [item] → item.kind?.toList = evs ++ (pcKind? t.pc).toList →
      t.core.tasks = s.core.tasks → InTurn t := by
    intro t evs hstx htaken heq htasks
    have htaken' : t.core.taken.filterMap Request.kind?
        = s.core.taken.filterMap Request.kind? ++ item.kind?.toList := by
      rw [htaken, List.filterMap_append]
      rcases hk : item.kind? with _ | kind <;> simp [hk]
    refine h.answer (by rw [hpc]; rintro ⟨⟩) hstx htaken' ?_ ?_
    · rw [hrecv]
      exact heq
    · rw [htasks]
      exact h.unsent
  have hsame : s.core.stx.filterMap Event.kind? = s.core.stx.filterMap Event.kind? ++ [] :=
    (List.append_nil _).symm
  rcases item with a | ⟨mid, msg, req⟩
  · cases a with
    | init id => exact hkept _ [] (by simp [body, BatchCore.emit, Event.kind?]) rfl (by
        simp [body, hrecv, Request.kind?]) rfl
    | flush =>
      simp only [body]
      split_ifs
      · exact hkept _ [] hsame rfl rfl rfl
      · exact hkept _ [] hsame rfl rfl rfl
    | close => exact hkept _ [] hsame rfl (by simp [body, hrecv, Request.kind?]) rfl
    | sync | stats => exact hkept _ [] hsame rfl rfl rfl
  · simp only [body]
    split_ifs
    · exact hkept _ [] hsame rfl rfl rfl
    · exact hkept _ [] hsame rfl rfl rfl

theorem inTurn_step {l : PollerLabel M (BufferUnorderedBatchedLabel R E ⊕ Panic)} (h : InTurn s)
    (hs : (withPanics (bufferUnorderedBatchPoller M R E cfg) (panic cfg)).step s l = some s') :
    InTurn s' := by
  -- Nothing is taken, and what is in hand is answered or stays there.
  have hgo : ∀ (core : BatchCore M R E) (pc : BufferUnorderedPc M) (permits : ℕ)
      (evs : List BarrierKind), s.pc ≠ .aborted →
      core.stx.filterMap Event.kind? = s.core.stx.filterMap Event.kind? ++ evs →
      core.taken = s.core.taken → (pcKind? s.pc).toList = evs ++ (pcKind? pc).toList →
      (∀ t ∈ core.tasks, ∀ ev ∈ t.unsent, ev.kind? = none) → InTurn ⟨core, pc, permits⟩ := by
    intro core pc permits evs hne hstx htaken heq hunsent
    have htaken' : core.taken.filterMap Request.kind?
        = s.core.taken.filterMap Request.kind? ++ [] := by
      rw [htaken, List.append_nil]
    exact h.answer hne hstx htaken' ((List.append_nil _).trans heq) hunsent
  have hsame : s.core.stx.filterMap Event.kind? = s.core.stx.filterMap Event.kind? ++ [] :=
    (List.append_nil _).symm
  have hspawn : ∀ (batch : Batch M), ∀ t ∈ s.core.tasks ++ [⟨batch, .spawned⟩],
      ∀ ev ∈ t.unsent, ev.kind? = none := by
    intro batch
    rw [List.forall_mem_append, List.forall_mem_singleton]
    exact ⟨h.unsent, List.forall_mem_nil _⟩
  rcases l with item | l | p
  · have hs : s.step cfg (.push item) = some s' := hs
    cases move hs
    exact ⟨h.order, h.owed, h.unsent⟩
  · have hs : s.step cfg (.run l) = some s' := hs
    cases move hs with
    | take item rx hpc => exact inTurn_body h hpc item rx
    | ends hpc => exact hgo _ _ _ [] (by rw [hpc]; rintro ⟨⟩) hsame rfl (by rw [hpc]; rfl) h.unsent
    | dispatch hpc =>
      exact hgo _ _ _ [] (by rw [hpc]; rintro ⟨⟩) hsame rfl (by rw [hpc]; rfl) (hspawn _)
    | flushDispatch batch hpc =>
      exact hgo _ _ _ [] (by rw [hpc]; rintro ⟨⟩) hsame rfl (by rw [hpc]; rfl) (hspawn _)
    | flushed hpc =>
      exact hgo _ _ _ [.flush] (by rw [hpc]; rintro ⟨⟩) (by simp [BatchCore.emit, Event.kind?]) rfl
        (by rw [hpc]; rfl) h.unsent
    | sync hpc => exact hgo _ _ _ [] (by rw [hpc]; rintro ⟨⟩) hsame rfl (by rw [hpc]; rfl) h.unsent
    | synced resp hpc =>
      exact hgo _ _ _ [.sync] (by rw [hpc]; rintro ⟨⟩) (by simp [BatchCore.emit, Event.kind?]) rfl
        (by rw [hpc]; rfl) h.unsent
    | start i c hc => exact BatchCore.InTurn.task h (.start hc)
    | finish i resp c hc => exact BatchCore.InTurn.task h (.finish hc)
    | send i c hc => exact BatchCore.InTurn.task h (.send hc)
  · obtain ⟨i, c, -, hc, rfl⟩ | ⟨-, hpc, rfl⟩ := panic_cases hs
    · exact BatchCore.InTurn.task h (.panic hc)
    · exact ⟨h.order, fun hab => absurd rfl hab, h.unsent⟩

theorem responsive (hpos : 1 ≤ cfg.maxParallel) (hcfg : cfg.Starts) :
    Responsive ((withPanics (bufferUnorderedBatchPoller M R E cfg) (panic cfg)).restrict
        PollerLabel.noStats) view (fun s => s.core.accepted) load (fun _ => true) work
      (fun s => (s.core.Within s.pc.held ∧ (Guarded cfg s ∧ Splits cfg s) ∧ Tracked s ∧ Alive s)
        ∧ InTurn s) (fun s => s.pc = .aborted) where
  toClosable := (closable hpos hcfg).and
    ⟨List.nil_prefix, fun _ => by
      simp [Lts.restrict, withPanics, bufferUnorderedBatchPoller, start, hcfg, pcKind?,
        BatchCore.start], List.forall_mem_nil _⟩
    fun _ _ _ _ h hs => inTurn_step h (Lts.restrict_step.1 hs).2
  action s kind s' hs := by
    have hs : s.step cfg (.push (.action kind.action)) = some s' := (Lts.restrict_step.1 hs).2
    cases move hs
    cases kind <;> simp only [work, List.map_append, List.map_cons, List.map_nil, List.sum_append,
      List.sum_singleton, itemWork, BarrierKind.action] <;> omega
  behind s h kind := h.2.behind kind
  answers s h hq habort kind := by
    have hq : (withPanics (bufferUnorderedBatchPoller M R E cfg) (panic cfg)).Quiet PollerLabel.own
        s := by
      rintro (item | l) hown
      · cases hown
      · simpa [Lts.restrict, PollerLabel.noStats] using hq l rfl
    have hrest := rested_of_quiet hpos h.1.2.1.1 h.1.2.2.1 hq
    refine asked_le_told ?_ kind
    have hturn : s.core.InTurn (pcKind? s.pc) (s.pc = .aborted) := h.2
    rcases hrest.loop with ⟨hrx, ⟨hpc, -⟩ | hpc⟩ | hpc
    · rw [hpc] at hturn
      exact hturn.answered (by rintro ⟨⟩) hrx
    · rw [hpc] at hturn
      exact hturn.answered (by rintro ⟨⟩) hrx
    · exact absurd hpc habort

end BufferUnorderedBatched

namespace SynchronizedBatched

variable {cfg : SynchronizedBatchedConfig} {s s' : SynchronizedBatched M R E}

/-- The call whose action is in hand. -/
def pcKind? : SynchronizedPc → Option BarrierKind
  | .syncAsk | .syncWait | .syncing => some .sync
  | _ => none

def InTurn (s : SynchronizedBatched M R E) : Prop :=
  s.core.InTurn (pcKind? s.pc) (s.pc = .aborted)

theorem inTurn_body (h : InTurn s) (hpc : s.pc = .recv) (item : Request M)
    (rx : List (Request M)) :
    InTurn (body cfg { s with core.rx := rx, core.taken := s.core.taken ++ [item] } item) := by
  have hrecv : pcKind? s.pc = none := by rw [hpc]; rfl
  have hkept : ∀ (t : SynchronizedBatched M R E) (evs : List BarrierKind),
      t.core.stx.filterMap Event.kind? = s.core.stx.filterMap Event.kind? ++ evs →
      t.core.taken = s.core.taken ++ [item] → item.kind?.toList = evs ++ (pcKind? t.pc).toList →
      (∀ t' ∈ t.core.tasks, t' ∈ s.core.tasks ∨ t'.unsent = []) → InTurn t := by
    intro t evs hstx htaken heq htasks
    have htaken' : t.core.taken.filterMap Request.kind?
        = s.core.taken.filterMap Request.kind? ++ item.kind?.toList := by
      rw [htaken, List.filterMap_append]
      rcases hk : item.kind? with _ | kind <;> simp [hk]
    refine h.answer (by rw [hpc]; rintro ⟨⟩) hstx htaken' ?_ fun t' ht' => ?_
    · rw [hrecv]
      exact heq
    · rcases htasks t' ht' with hold | hnew
      · exact h.unsent t' hold
      · rw [hnew]
        exact List.forall_mem_nil _
  have hsame : s.core.stx.filterMap Event.kind? = s.core.stx.filterMap Event.kind? ++ [] :=
    (List.append_nil _).symm
  have hspawn : ∀ (batch : Batch M), ∀ t ∈ s.core.tasks ++ [(⟨batch, .spawned⟩ : BatchTask M R E)],
      t ∈ s.core.tasks ∨ t.unsent = [] := by
    intro batch
    rw [List.forall_mem_append, List.forall_mem_singleton]
    exact ⟨fun t ht => .inl ht, .inr rfl⟩
  rcases item with a | ⟨mid, msg, req⟩
  · cases a with
    | init id =>
      exact hkept _ [] (by simp [body, BatchCore.emit, Event.kind?]) rfl (by
        simp [body, hrecv, Request.kind?]) fun t ht => .inl ht
    | flush =>
      have hpc' : (pcKind? s.pc).toList = [] := by rw [hrecv]; rfl
      simp only [body]
      split_ifs
      · exact hkept _ [.flush] (by simp [BatchCore.emit, Event.kind?]) rfl (by simp [hpc']; rfl)
          fun t ht => .inl ht
      · exact hkept _ [.flush] (by simp [BatchCore.emit, BatchCore.spawn, BatchCore.drain,
          Event.kind?]) rfl (by simp [hpc']; rfl) (hspawn _)
    | close =>
      exact hkept _ [] hsame rfl (by simp [body, hrecv, Request.kind?]) fun t ht => .inl ht
    | sync | stats => exact hkept _ [] hsame rfl rfl fun t ht => .inl ht
  · simp only [body]
    split_ifs
    · exact hkept _ [] hsame rfl (by rw [hrecv]; rfl) (hspawn _)
    · exact hkept _ [] hsame rfl (by rw [hrecv]; rfl) fun t ht => .inl ht

theorem inTurn_step {l : PollerLabel M (SynchronizedBatchedLabel R E ⊕ Panic)} (h : InTurn s)
    (hs : (withPanics (batchSynchronizedPoller M R E cfg) panic).step s l = some s') :
    InTurn s' := by
  -- Nothing is taken, and what is in hand stays there.
  have hgo : ∀ (pc : SynchronizedPc) (lock : List Holder), s.pc ≠ .aborted →
      pcKind? s.pc = pcKind? pc → InTurn ⟨s.core, pc, lock⟩ := by
    intro pc lock hne heq
    refine ⟨h.order, fun _ => ?_, h.unsent⟩
    rw [← heq]
    exact h.owed hne
  rcases l with item | l | p
  · have hs : s.step cfg (.push item) = some s' := hs
    cases move hs
    exact ⟨h.order, h.owed, h.unsent⟩
  · have hs : s.step cfg (.run l) = some s' := hs
    cases move hs with
    | take item rx hpc => exact inTurn_body h hpc item rx
    | ends hpc | askSync hpc | startSync hpc =>
      exact hgo _ _ (by rw [hpc]; rintro ⟨⟩) (by rw [hpc]; rfl)
    | synced resp hpc =>
      have htaken : s.core.taken.filterMap Request.kind?
          = s.core.taken.filterMap Request.kind? ++ [] := (List.append_nil _).symm
      have hstx : (s.core.emit (.synchronized (resp.mapError .other))).stx.filterMap Event.kind?
          = s.core.stx.filterMap Event.kind? ++ [.sync] := by simp [BatchCore.emit, Event.kind?]
      exact h.answer (by rw [hpc]; rintro ⟨⟩) hstx htaken (by rw [hpc]; rfl) h.unsent
    | start i c _ hc => exact BatchCore.InTurn.task h (.start hc)
    | finish i resp c _ hc => exact BatchCore.InTurn.task h (.finish hc)
    | send i c hc => exact BatchCore.InTurn.task h (.send hc)
    | ask | askOther | otherDone => exact ⟨h.order, h.owed, h.unsent⟩
  · obtain ⟨i, c, -, -, hc, rfl⟩ | ⟨-, hpc, rfl⟩ := panic_cases hs
    · exact BatchCore.InTurn.task h (.panic hc)
    · exact ⟨h.order, fun hab => absurd rfl hab, h.unsent⟩

theorem responsive (hcfg : cfg.Starts) :
    Responsive ((withPanics (batchSynchronizedPoller M R E cfg) panic).restrict PollerLabel.noStats)
      view (fun s => s.core.accepted) (fun s => s.core.load) runOwn work
      (fun s => (s.core.Within 0 ∧ Kept cfg s ∧ Alive s) ∧ InTurn s)
      (fun s => s.pc = .aborted) where
  toClosable := (closable hcfg).and
    ⟨List.nil_prefix, fun _ => by
      simp [Lts.restrict, withPanics, batchSynchronizedPoller, start, hcfg, pcKind?,
        BatchCore.start], List.forall_mem_nil _⟩
    fun _ _ _ _ h hs => inTurn_step h (Lts.restrict_step.1 hs).2
  action s kind s' hs := by
    have hs : s.step cfg (.push (.action kind.action)) = some s' := (Lts.restrict_step.1 hs).2
    cases move hs
    cases kind <;> simp only [work, List.map_append, List.map_cons, List.map_nil, List.sum_append,
      List.sum_singleton, itemWork, BarrierKind.action] <;> omega
  behind s h kind := h.2.behind kind
  answers s h hq habort kind := by
    have hq : (withPanics (batchSynchronizedPoller M R E cfg) panic).Quiet own s := by
      rintro (item | l) hown
      · cases hown
      · have hl : runOwn l = true := by
          rcases l with l | p
          · cases l <;> first | rfl | cases hown
          · rfl
        simpa [Lts.restrict, PollerLabel.noStats] using hq l hl
    have hrest := rested_of_quiet h.1.2.1.queued h.1.2.1.tracked hq
    refine asked_le_told ?_ kind
    have hturn : s.core.InTurn (pcKind? s.pc) (s.pc = .aborted) := h.2
    rcases hrest.loop with ⟨hrx, ⟨hpc, -⟩ | hpc⟩ | hpc
    · rw [hpc] at hturn
      exact hturn.answered (by rintro ⟨⟩) hrx
    · rw [hpc] at hturn
      exact hturn.answered (by rintro ⟨⟩) hrx
    · exact absurd hpc habort

end SynchronizedBatched

end Pollers

/-- Callers of `flush` and `sync` come back, at the four kinds of local receivers, with any number
of callers, whatever else is sent and in whichever order the steps come, but for one caller of
`flush` for each `Flushed` that was handled while a notification was stored. A `BufferUnordered`
receiver must have a permit to give and no more than a semaphore may have; the batched ones must
get to their loop, and are not sent a `Stats`. -/
theorem callers_come_back {ι B H M R E : Type} [DecidableEq ι] [Fintype ι] [StdSyncSendError E]
    {Mi Ri Ei : ι → Type} [∀ i, StdSyncSendError (Ei i)] (limit : UInt64) (intoBoxed : R → B) :
    (∀ cfg, 1 ≤ cfg.maxParallel → cfg.maxParallel ≤ 2305843009213693951 →
      ComesBack intoBoxed limit (bufferUnorderedPoller M R E cfg) BufferUnordered.view
        BufferUnordered.accepted (fun _ => true) BufferUnordered.work (fun s => s.pc = .aborted))
    ∧ (∀ (f : SynchronizedHandler Mi Ri Ei H) (h₀ : H) (i : ι) (g : Ri i → B),
      ComesBack g limit (synchronizedPoller f h₀ i) (SynchronizedItem.view i)
        (fun s => (s.subs i).accepted) ItemLabel.own SynchronizedItem.work
        (fun s => (s.subs i).pc = .aborted))
    ∧ (∀ cfg, 1 ≤ cfg.maxParallel → cfg.Starts →
      ComesBack intoBoxed limit ((withPanics (bufferUnorderedBatchPoller M R E cfg)
          (BufferUnorderedBatched.panic cfg)).restrict PollerLabel.noStats)
        BufferUnorderedBatched.view (fun s => s.core.accepted) (fun _ => true)
        BufferUnorderedBatched.work (fun s => s.pc = .aborted))
    ∧ ∀ cfg, cfg.Starts → ComesBack intoBoxed limit ((withPanics (batchSynchronizedPoller M R E cfg)
          SynchronizedBatched.panic).restrict PollerLabel.noStats)
        SynchronizedBatched.view (fun s => s.core.accepted) SynchronizedBatched.runOwn
        SynchronizedBatched.work (fun s => s.pc = .aborted) :=
  ⟨fun _ hpos hmax => (BufferUnordered.responsive hpos hmax).comesBack intoBoxed limit,
    fun f h₀ i g => (SynchronizedItem.responsive f h₀ i).comesBack g limit,
    fun _ hpos hcfg => (BufferUnorderedBatched.responsive hpos hcfg).comesBack intoBoxed limit,
    fun _ hcfg => (SynchronizedBatched.responsive hcfg).comesBack intoBoxed limit⟩

/-- Two `Flushed`s handled before either of two callers polls: the second goes lost, and the second
caller waits. -/
theorem lost_flushed_strands_one : ∃ s,
    ((servedCallers (id : Unit → Unit) 1 (bufferUnorderedPoller Unit Unit GenericError ⟨1⟩)
        BufferUnordered.view BufferUnordered.accepted).logged
      (lostFlushed id BufferUnordered.view BufferUnordered.accepted)).Reachable s
    ∧ s.2 = [1] ∧ s.1.calls = [⟨.flush, 0, .returned, false⟩, ⟨.flush, 1, .parked, false⟩]
    ∧ ComesBack (id : Unit → Unit) 1 (bufferUnorderedPoller Unit Unit GenericError ⟨1⟩)
      BufferUnordered.view BufferUnordered.accepted (fun _ => true) BufferUnordered.work
      (fun s => s.pc = .aborted) := by
  have hrun : ((servedCallers (id : Unit → Unit) 1
        (bufferUnorderedPoller Unit Unit GenericError ⟨1⟩) BufferUnordered.view
        BufferUnordered.accepted).logged
      (lostFlushed id BufferUnordered.view BufferUnordered.accepted)).run
    [.start .flush, .push 0, .start .flush, .push 1, .step (.run .recv), .step (.run .acquire),
      .step (.run .recv), .step (.run .acquire), .step .turn, .step .turn, .poll 0, .poll 1]
      = some _ := rfl
  exact ⟨_, Lts.reachable_of_run hrun, rfl, rfl,
    (@callers_come_back Unit Unit Unit Unit Unit GenericError _ _ _ (fun _ => Unit) (fun _ => Unit)
      (fun _ => GenericError) _ 1 id).1 ⟨1⟩ (by decide) (by decide)⟩

end MessageBus
