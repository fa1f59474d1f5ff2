import MessageBus.Callers
import MessageBus.Lib.Pool
import MessageBus.Proofs.Counted

/-!
# What a step of the callers can do

The waiters of `flushed` are the calls of `flush` that are parked without a notification
(`Queued`). What a receiver tells its callers is counted on its stream: `asked` counts the actions
of a kind among the items, `told` the events that answer them, and every event the loop handles
gives the notification of its kind (`Counted.told_serve`).
-/

namespace MessageBus

/-- The waiters of `flushed` and the calls they belong to. -/
structure Queued (n : Notify ℕ) (calls : List Caller) : Prop where
  parked : ∀ w ∈ n.waiters, ∃ since, calls[w]? = some ⟨.flush, since, .parked, false⟩
  nodup : n.waiters.Nodup
  unparked : ∀ c ∈ calls, c.kind = .flush → c.stage = .created ∨ c.stage = .pushed →
    c.notified = false

namespace Queued

variable {n : Notify ℕ} {calls : List Caller} {i : ℕ} {c c' : Caller}

/-- A call that does not wait moves on. -/
theorem set (h : Queued n calls) (hi : calls[i]? = some c)
    (hc : c.stage ≠ .parked ∨ c.notified = true)
    (hc' : c'.kind = .flush → c'.stage = .created ∨ c'.stage = .pushed → c'.notified = false) :
    Queued n (calls.set i c') where
  parked w hw := by
    obtain ⟨since, hcall⟩ := h.parked w hw
    have hne : i ≠ w := by
      rintro rfl
      rw [hi, Option.some.injEq] at hcall
      simp [hcall] at hc
    exact ⟨since, by simpa [List.getElem?_set, hne] using hcall⟩
  nodup := h.nodup
  unparked x hx := by
    rcases List.mem_or_eq_of_mem_set hx with hx | rfl
    · exact h.unparked x hx
    · exact hc'

theorem permit (h : Queued n calls) (b : Bool) : Queued { n with permit := b } calls :=
  ⟨h.parked, h.nodup, h.unparked⟩

/-- A call of `flush` joins the waiters. -/
theorem park (h : Queued n calls) {since : ℕ} {notified : Bool}
    (hi : calls[i]? = some ⟨.flush, since, .pushed, notified⟩) :
    Queued { n with waiters := n.waiters ++ [i] }
      (calls.set i ⟨.flush, since, .parked, notified⟩) := by
  have hlt := (List.getElem?_eq_some_iff.1 hi).1
  obtain rfl : notified = false := h.unparked _ (List.mem_of_getElem? hi) rfl (.inr rfl)
  have hset : Queued n (calls.set i ⟨.flush, since, .parked, false⟩) :=
    h.set hi (.inl (by simp)) (by simp)
  refine ⟨fun w hw => ?_, ?_, hset.unparked⟩
  · rcases List.mem_append.1 hw with hw | hw
    · exact hset.parked w hw
    · obtain rfl := List.mem_singleton.1 hw
      exact ⟨since, by simp [hlt]⟩
  · have hne : ∀ w ∈ n.waiters, w ≠ i := by
      rintro w hw rfl
      obtain ⟨since', hcall⟩ := h.parked w hw
      rw [hi] at hcall
      simp at hcall
    simpa [List.nodup_append, h.nodup] using hne

/-- The first waiter has its notification. -/
theorem modify_head {w : ℕ} {ws : List ℕ} (h : Queued n calls) (hw : n.waiters = w :: ws) :
    ∃ since, calls[w]? = some ⟨.flush, since, .parked, false⟩
      ∧ calls.modify w .notify = calls.set w ⟨.flush, since, .parked, true⟩ := by
  obtain ⟨since, hcall⟩ := h.parked w (by simp [hw])
  refine ⟨since, hcall, ?_⟩
  rw [List.modify_eq_set_getElem?, hcall]
  rfl

theorem wake {w : ℕ} {ws : List ℕ} (h : Queued n calls) (hw : n.waiters = w :: ws) :
    Queued { n with waiters := ws } (calls.modify w .notify) := by
  obtain ⟨since, hcall, hset⟩ := h.modify_head hw
  have hnodup := h.nodup
  rw [hw, List.nodup_cons] at hnodup
  have hrest : Queued { n with waiters := ws } calls :=
    ⟨fun v hv => h.parked v (by simp [hw, show v ∈ ws from hv]), hnodup.2, h.unparked⟩
  rw [hset]
  refine ⟨fun v hv => ?_, hnodup.2, fun x hx => ?_⟩
  · obtain ⟨since', hcall'⟩ := hrest.parked v hv
    have hne : w ≠ v := fun hwv => hnodup.1 (hwv ▸ hv)
    exact ⟨since', by simpa [List.getElem?_set, hne] using hcall'⟩
  · rcases List.mem_or_eq_of_mem_set hx with hx | rfl
    · exact h.unparked x hx
    · simp

theorem append (h : Queued n calls) (kind : BarrierKind) (since : ℕ) :
    Queued n (calls ++ [⟨kind, since, .created, false⟩]) where
  parked w hw := by
    obtain ⟨since, hcall⟩ := h.parked w hw
    have hlt := (List.getElem?_eq_some_iff.1 hcall).1
    exact ⟨since, by rwa [List.getElem?_append_left hlt]⟩
  nodup := h.nodup
  unparked c hc := by
    rcases List.mem_append.1 hc with hc | hc
    · exact h.unparked c hc
    · obtain rfl := List.mem_singleton.1 hc
      exact fun _ _ => rfl

end Queued

/-- What `synchronized.notify_waiters` does to a call. -/
def Caller.notifySync (c : Caller) : Caller := if c.kind = .sync then c.notify else c

@[simp] theorem Caller.notifySync_flush (since : ℕ) (stage : CallerStage) (notified : Bool) :
    (⟨.flush, since, stage, notified⟩ : Caller).notifySync = ⟨.flush, since, stage, notified⟩ := rfl

@[simp] theorem Caller.kind_notify (c : Caller) : c.notify.kind = c.kind := by
  unfold notify
  split <;> rfl

@[simp] theorem Caller.since_notify (c : Caller) : c.notify.since = c.since := by
  unfold notify
  split <;> rfl

@[simp] theorem Caller.stage_notify (c : Caller) : c.notify.stage = c.stage := by
  unfold notify
  split <;> rfl

@[simp] theorem Caller.kind_notifySync (c : Caller) : c.notifySync.kind = c.kind := by
  unfold notifySync
  split_ifs
  · exact kind_notify c
  · rfl

@[simp] theorem Caller.since_notifySync (c : Caller) : c.notifySync.since = c.since := by
  unfold notifySync
  split_ifs
  · exact since_notify c
  · rfl

/-- A call whose wait is over was so before, or is given its notification now. -/
theorem Caller.notified_of_notifySync (c : Caller)
    (h : c.notifySync.notified = true ∨ c.notifySync.stage = .returned) :
    (c.notified = true ∨ c.stage = .returned)
      ∨ c.kind = .sync ∧ c.stage ≠ .returned ∧ c.stage ≠ .refused ∧ c.notified = false := by
  obtain ⟨_ | _, since, stage, _ | _⟩ := c <;> cases stage <;>
    simp [notifySync, notify] at h ⊢

theorem Caller.notifySync_of_flush {c : Caller} (h : c.notifySync.kind = .flush) :
    c.notifySync = c := by
  unfold notifySync at h ⊢
  split_ifs at h ⊢ with hkind
  · simp [hkind] at h
  · rfl

theorem Queued.all {n : Notify ℕ} {calls : List Caller} (h : Queued n calls) :
    Queued n (calls.map Caller.notifySync) where
  parked w hw := by
    obtain ⟨since, hcall⟩ := h.parked w hw
    exact ⟨since, by simp [hcall]⟩
  nodup := h.nodup
  unparked c hc hkind := by
    obtain ⟨c, hmem, rfl⟩ := List.mem_map.1 hc
    have hkept := Caller.notifySync_of_flush hkind
    rw [hkept] at hkind ⊢
    exact h.unparked c hmem hkind

namespace CallersState

variable {σ ℓ : Type} {R : Lts σ ℓ} {V : CallersView σ ℓ}

/-- Everything a step can do. -/
inductive Move (R : Lts σ ℓ) (V : CallersView σ ℓ) (s : CallersState σ) :
    CallersLabel ℓ → CallersState σ → Prop
  | start (kind : BarrierKind) : Move R V s (.start kind)
      { s with calls := s.calls ++ [⟨kind, V.accepted s.receiver, .created, false⟩] }
  | push {i since : ℕ} {kind : BarrierKind} {notified : Bool} (receiver : σ) :
      s.calls[i]? = some ⟨kind, since, .created, notified⟩ →
      R.step s.receiver (V.push kind.action) = some receiver →
      Move R V s (.push i)
        { s with receiver, calls := s.calls.set i ⟨kind, since, .pushed, notified⟩ }
  | refuse {i since : ℕ} {kind : BarrierKind} {notified : Bool} :
      s.calls[i]? = some ⟨kind, since, .created, notified⟩ →
      Move R V s (.push i) { s with calls := s.calls.set i ⟨kind, since, .refused, notified⟩ }
  | take {i since : ℕ} {notified : Bool} :
      s.calls[i]? = some ⟨.flush, since, .pushed, notified⟩ → s.flushed.permit = true →
      Move R V s (.poll i) { s with
        flushed.permit := false
        calls := s.calls.set i ⟨.flush, since, .returned, notified⟩ }
  | park {i since : ℕ} {notified : Bool} :
      s.calls[i]? = some ⟨.flush, since, .pushed, notified⟩ → s.flushed.permit = false →
      Move R V s (.poll i) { s with
        flushed.waiters := s.flushed.waiters ++ [i]
        calls := s.calls.set i ⟨.flush, since, .parked, notified⟩ }
  | pollSync {i since : ℕ} {notified : Bool} :
      s.calls[i]? = some ⟨.sync, since, .pushed, notified⟩ →
      Move R V s (.poll i) { s with
        calls := s.calls.set i
          ⟨.sync, since, if notified then .returned else .parked, notified⟩ }
  | resume {i since : ℕ} {kind : BarrierKind} : s.calls[i]? = some ⟨kind, since, .parked, true⟩ →
      Move R V s (.resume i) { s with calls := s.calls.set i ⟨kind, since, .returned, true⟩ }
  | quiet {l : ℓ} (receiver : σ) : V.calls l = false → R.step s.receiver l = some receiver →
      V.rings s.receiver l = none → Move R V s (.step l) { s with receiver }
  | store {l : ℓ} (receiver : σ) : V.calls l = false → R.step s.receiver l = some receiver →
      V.rings s.receiver l = some .flush → s.flushed.waiters = [] →
      Move R V s (.step l) { s with receiver, flushed.permit := true }
  | wake {l : ℓ} (receiver : σ) (w : ℕ) (ws : List ℕ) : V.calls l = false →
      R.step s.receiver l = some receiver → V.rings s.receiver l = some .flush →
      s.flushed.waiters = w :: ws →
      Move R V s (.step l)
        { s with receiver, flushed.waiters := ws, calls := s.calls.modify w .notify }
  | all {l : ℓ} (receiver : σ) : V.calls l = false → R.step s.receiver l = some receiver →
      V.rings s.receiver l = some .sync →
      Move R V s (.step l) { s with receiver, calls := s.calls.map Caller.notifySync }

variable {s s' : CallersState σ} {l : CallersLabel ℓ}

theorem move (h : s.step R V l = some s') : Move R V s l s' := by
  cases l with
  | start kind =>
    cases h
    exact .start kind
  | push i =>
    simp only [step] at h
    split at h
    · split at h
      · cases h
        exact .push _ ‹_› ‹_›
      · cases h
        exact .refuse ‹_›
    · cases h
  | poll i =>
    simp only [step] at h
    split at h
    · rename_i hi
      by_cases hp : s.flushed.permit = true
      · rw [Notify.notified, if_pos hp] at h
        cases h
        exact .take hi hp
      · rw [Notify.notified, if_neg hp] at h
        cases h
        exact .park hi (by simpa using hp)
    · cases h
      exact .pollSync ‹_›
    · cases h
  | resume i =>
    simp only [step] at h
    split at h
    · cases h
      exact .resume ‹_›
    · cases h
  | step l =>
    simp only [step] at h
    split_ifs at h with hcalls
    have hcalls : V.calls l = false := by simpa using hcalls
    obtain ⟨receiver, hreceiver, h⟩ := Option.map_eq_some_iff.1 h
    split at h
    · rename_i kind hrings
      cases kind with
      | flush =>
        unfold ring Notify.notifyOne at h
        simp only at h
        split at h
        · cases h
          exact .store receiver hcalls hreceiver hrings ‹_›
        · cases h
          exact .wake receiver _ _ hcalls hreceiver hrings ‹_›
      | sync =>
        cases h
        exact .all receiver hcalls hreceiver hrings
    · cases h
      exact .quiet receiver hcalls hreceiver ‹_›

theorem queued_step (h : Queued s.flushed s.calls) (hs : s.step R V l = some s') :
    Queued s'.flushed s'.calls := by
  cases move hs with
  | start kind => exact h.append kind _
  | push receiver hi =>
    have hunparked := h.unparked _ (List.mem_of_getElem? hi)
    exact h.set hi (.inl (by simp)) fun hkind _ => hunparked hkind (.inl rfl)
  | refuse hi => exact h.set hi (.inl (by simp)) (by simp)
  | take hi hp => exact (h.set hi (.inl (by simp)) (by simp)).permit false
  | park hi hp => exact h.park hi
  | pollSync hi => exact h.set hi (.inl (by simp)) (by simp)
  | resume hi => exact h.set hi (.inr rfl) (by simp)
  | quiet receiver => exact h
  | store receiver => exact h.permit true
  | wake receiver w ws _ _ _ hw => exact h.wake hw
  | all receiver => exact h.all

theorem queued_start : Queued (callers R V).start.flushed (callers R V).start.calls where
  parked w hw := by simp [callers, Notify.new] at hw
  nodup := List.nodup_nil
  unparked c hc := by simp [callers] at hc

end CallersState

section Kinds

variable {M R E : Type}

/-- The kind of call that pushes the item. -/
def Request.kind? : Request M → Option BarrierKind
  | .action .flush => some .flush
  | .action .sync => some .sync
  | _ => none

/-- The kind of call the event is for. -/
def Event.kind? : Event R E → Option BarrierKind
  | .flushed => some .flush
  | .synchronized _ => some .sync
  | _ => none

def asked (kind : BarrierKind) (items : List (Request M)) : ℕ :=
  (items.filterMap Request.kind?).count kind

def told (kind : BarrierKind) (evs : List (Event R E)) : ℕ := (evs.filterMap Event.kind?).count kind

variable {kind : BarrierKind}

@[simp] theorem asked_append (items items' : List (Request M)) :
    asked kind (items ++ items') = asked kind items + asked kind items' := by
  simp [asked]

@[simp] theorem told_append (evs evs' : List (Event R E)) :
    told kind (evs ++ evs') = told kind evs + told kind evs' := by
  simp [told]

theorem asked_singleton (item : Request M) :
    asked kind [item] = if item.kind? = some kind then 1 else 0 := by
  unfold asked
  rcases h : item.kind? with _ | kind' <;> simp [h, List.count_singleton]

theorem told_singleton (ev : Event R E) :
    told kind [ev] = if ev.kind? = some kind then 1 else 0 := by
  unfold told
  rcases h : ev.kind? with _ | kind' <;> simp [h, List.count_singleton]

theorem told_take_le (evs : List (Event R E)) (n : ℕ) : told kind (evs.take n) ≤ told kind evs :=
  (((List.take_prefix n evs).filterMap _).sublist).count_le _

@[simp] theorem kind_action (kind : BarrierKind) :
    (Request.action kind.action : Request M).kind? = some kind := by
  cases kind <;> rfl

end Kinds

section Served

variable {M R E B σ ℓ : Type} [StdSyncSendError E] {intoBoxed : R → B}
  {P : Lts σ (PollerLabel M ℓ)} {V : PollerView σ R E} {accepted : σ → List (Request M)}
  {load : σ → ℕ} {Inv : σ → Prop} {s s' : ServedState σ R E B} {l : ServedLabel M ℓ}

/-- An event gives the notification of its kind. -/
theorem call_handleEvent (w : ReceiverWrapper) (chans : Channels R E B) (ev : Event R E) :
    (handleEvent intoBoxed w chans ev).wakes.findSome? Wake.call? = ev.kind? := by
  cases ev with
  | response mid res =>
    show ((if w.context.processing = 1 then [Wake.idle] else []) ++ [Wake.responseOne]).findSome?
      Wake.call? = none
    split_ifs <;> rfl
  | batchComplete tt n =>
    show [if n > 1 then Wake.response else .responseOne].findSome? Wake.call? = none
    split_ifs <;> rfl
  | _ => rfl

theorem calls_servedView :
    (servedView intoBoxed V accepted).calls l = l.items.any fun item => item.kind?.isSome := by
  cases l with
  | push item =>
    rcases item with a | ⟨mid, msg, req⟩
    · cases a <;> rfl
    · rfl
  | _ => rfl

theorem rings_servedView (hl : l ≠ .turn) :
    (servedView intoBoxed V accepted).rings s l = none := by
  cases l with
  | turn => exact absurd rfl hl
  | _ => rfl

/-- What the loop has told the callers of a kind so far. -/
def ServedState.told (V : PollerView σ R E) (s : ServedState σ R E B) (kind : BarrierKind) : ℕ :=
  MessageBus.told kind ((V.stx s.poller).take s.heard)

theorem Counted.accepted_serve (hP : Counted P V accepted load Inv)
    (hs : s.step intoBoxed P V l = some s') :
    accepted s'.poller = accepted s.poller ++ l.items := by
  rcases serve_cases hs with ⟨item, rfl, hp, -⟩ | ⟨m, rfl, hp, -⟩
    | ⟨ev, rfl, -, hp, -⟩ | ⟨hl, -, hp, -⟩
  · exact (hP.push _ _ _ hp).1
  · exact (hP.run _ _ _ hp).1.trans (List.append_nil _).symm
  · rw [hp]
    exact (List.append_nil _).symm
  · rw [hp, hl, List.append_nil]

/-- A turn tells the callers of the kind it gives notifications for. -/
theorem Counted.told_serve (hP : Counted P V accepted load Inv)
    (hheard : s.heard ≤ (V.stx s.poller).length) (hs : s.step intoBoxed P V l = some s') :
    s'.heard ≤ (V.stx s'.poller).length ∧ ∀ kind, s'.told V kind = s.told V kind
      + if (servedView intoBoxed V accepted).rings s l = some kind then 1 else 0 := by
  have hgrow : V.stx s.poller <+: V.stx s'.poller → s'.heard = s.heard →
      s'.heard ≤ (V.stx s'.poller).length ∧ ∀ kind, s'.told V kind = s.told V kind + 0 := by
    intro hp hn
    refine ⟨hn ▸ Nat.le_trans hheard hp.length_le, fun kind => ?_⟩
    obtain ⟨evs, hevs⟩ := hp
    simp only [ServedState.told]
    rw [hn, ← hevs, List.take_append_of_le_length hheard, Nat.add_zero]
  rcases serve_cases hs with ⟨item, rfl, hp, hn⟩ | ⟨m, rfl, hp, hn⟩
    | ⟨ev, rfl, hev, hp, hn⟩ | ⟨-, hl, hp, hn⟩
  · exact hgrow ((hP.push _ _ _ hp).2 ▸ List.prefix_rfl) hn
  · exact hgrow (hP.run _ _ _ hp).2 hn
  · have hrings : (servedView intoBoxed V accepted).rings s (.turn : ServedLabel M ℓ)
        = ev.kind? := by
      show s.rings intoBoxed V = _
      rw [ServedState.rings, hev, Option.bind_some, call_handleEvent]
    refine ⟨?_, fun kind => ?_⟩
    · rw [hn, hp]
      exact (List.getElem?_eq_some_iff.1 hev).1
    · rw [hrings, ← told_singleton]
      simp only [ServedState.told]
      rw [hn, hp, List.take_add_one, hev, Option.toList_some, told_append]
  · rw [rings_servedView hl]
    exact hgrow (hp ▸ List.prefix_rfl) hn

end Served

end MessageBus
