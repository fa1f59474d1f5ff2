import MessageBus.Proofs.Linear

/-!
# What an unbatched receiver has answered when its stream ends

The stream ends once the loop and its tasks have dropped their senders, so by then the queue is
empty and every task has sent. With handlers that return, each accepted message has been in one
call, and the call's `Response` is the only one for it.
-/

namespace MessageBus

section Served

variable {M R E B σ ℓ : Type} [StdSyncSendError E] {intoBoxed : R → B} {limit : UInt64}
  {P : Lts σ (PollerLabel M ℓ)} {V : PollerView σ R E} {s s' : ServedState σ R E B}

/-- The events the loop has processed. -/
def ServedState.processed (V : PollerView σ R E) (s : ServedState σ R E B) : List (Event R E) :=
  (V.stx s.poller).take s.heard

/-- A receiver lets its poller do only what the poller does by itself. -/
theorem poller_reachable (h : (servedReceiver intoBoxed limit P V).Reachable s) :
    P.Reachable s.poller := by
  induction h with
  | start => exact .start
  | step _ hs ih => exact reachable_serve ih hs

/-- The stream ends with all its events processed and nobody left to send. -/
theorem endStream_eq_some
    (hs : (servedReceiver intoBoxed limit P V).step s .endStream = some s') :
    s.processed V = V.stx s.poller ∧ V.silent s.poller = true := by
  have hs : s.step intoBoxed P V (.endStream : ServedLabel M ℓ) = some s' := hs
  simp only [ServedState.step] at hs
  split_ifs at hs with hend
  obtain ⟨-, hheard, hsilent⟩ := hend
  exact ⟨by rw [ServedState.processed, hheard, List.take_length], hsilent⟩

end Served

/-- The calls are of the accepted messages, one of each, and the `Response`s what they returned. -/
def AnsweredOnce {M R E : Type} (accepted : List (Request M))
    (returned : List (UInt64 × M × Except E R)) (evs : List (Event R E)) : Prop :=
  (returned.map fun c => (c.1, c.2.1)) = accepted.filterMap Request.call?
    ∧ (evs.filterMap Event.answer?).Perm (returned.map fun c => (c.1, c.2.2.mapError .other))

/-- In every run of the receiver around `P`, the loop has processed an answer to every accepted
message when its stream ends. -/
def AnsweredAtEnd {M R E B σ ℓ : Type} [StdSyncSendError E] (intoBoxed : R → B) (limit : UInt64)
    (P : Lts σ (PollerLabel M ℓ)) (V : PollerView σ R E) (accepted : σ → List (Request M))
    (returned : σ → List (UInt64 × M × Except E R)) : Prop :=
  ∀ s s', (servedReceiver intoBoxed limit P V).Reachable s →
    (servedReceiver intoBoxed limit P V).step s .endStream = some s' →
    AnsweredOnce (accepted s.poller) (returned s.poller) (s.processed V)

/-- No `Stats` goes to the queue, which neither loop can answer. -/
def PollerLabel.noStats {M ℓ : Type} : PollerLabel M ℓ → Bool
  | .push (.action .stats) => false
  | _ => true

def CallStage.isPanicked {R E : Type} : CallStage R E → Bool
  | .panicked => true
  | _ => false

namespace BufferUnordered

variable {M R E : Type} {cfg : BufferUnorderedConfig} {s s' : BufferUnordered M R E}
  {l : PollerLabel M (Label R E)}

/-- The handler returns from its calls and from `sync`. -/
def returns : PollerLabel M (Label R E) → Bool
  | .run .syncPanic | .run (.panic _) => false
  | _ => true

/-- The calls that are over, with what they returned. -/
def returned (s : BufferUnordered M R E) : List (UInt64 × M × Except E R) :=
  s.tasks.filterMap fun t =>
    match t.stage with
    | .returned resp | .sent resp => some (t.mid, t.msg, resp)
    | _ => none

/-- Nothing has stopped the loop before the end of its queue, and no task has stopped short. -/
structure Lively (s : BufferUnordered M R E) : Prop where
  running : s.pc ≠ .aborted
  stats : Request.action .stats ∉ s.rx
  drained : s.pc = .ended → s.rx = [] ∧ s.closed = true
  tasks : ∀ t ∈ s.tasks, t.stage.isPanicked = false

theorem lively_start (hmax : cfg.maxParallel ≤ 4294967295) :
    Lively (start cfg : BufferUnordered M R E) := by
  have hsmall : cfg.maxParallel ≤ 2305843009213693951 := by omega
  simp only [start, hsmall, if_true]
  exact ⟨by rintro ⟨⟩, List.not_mem_nil, by rintro ⟨⟩, List.forall_mem_nil _⟩

theorem Lively.set (h : Lively s) (i : ℕ) {t : CallTask M R E} (ht : t.stage.isPanicked = false) :
    ∀ t' ∈ s.tasks.set i t, t'.stage.isPanicked = false := by
  intro t' ht'
  rcases List.mem_or_eq_of_mem_set ht' with ht' | rfl
  · exact h.tasks t' ht'
  · exact ht

theorem lively_body (h : Lively s) (hpc : s.pc = .recv) {item : Request M} {rx : List (Request M)}
    (hrx : s.rx = item :: rx) :
    Lively (body { s with rx := rx, taken := s.taken ++ [item] } item) := by
  have hstats := h.stats
  rw [hrx, List.mem_cons, not_or] at hstats
  rcases item with a | ⟨mid, msg, req⟩
  · rcases a with id | _ | _ | _ | _
    · exact ⟨h.running, hstats.2, fun hp => by simp [body, emit, hpc] at hp, h.tasks⟩
    · exact ⟨by rintro ⟨⟩, hstats.2, by rintro ⟨⟩, h.tasks⟩
    · exact ⟨by rintro ⟨⟩, hstats.2, by rintro ⟨⟩, h.tasks⟩
    · exact ⟨h.running, hstats.2, fun hp => by simp [body, hpc] at hp, h.tasks⟩
    · exact absurd rfl hstats.1
  · exact ⟨by rintro ⟨⟩, hstats.2, by rintro ⟨⟩, h.tasks⟩

theorem lively_step (h : Lively s) (hl : returns l = true) (hstats : l.noStats = true)
    (hs : s.step cfg l = some s') : Lively s' := by
  cases move hs with
  | push item hclosed =>
    refine ⟨h.running, ?_, fun hp => ?_, h.tasks⟩
    · rw [List.mem_append, not_or, List.mem_singleton]
      refine ⟨h.stats, ?_⟩
      rintro rfl
      cases hstats
    · rw [(h.drained hp).2] at hclosed
      cases hclosed
  | take item rx hpc hrx => exact lively_body h hpc hrx
  | ends _ hrx hclosed => exact ⟨by rintro ⟨⟩, h.stats, fun _ => ⟨hrx, hclosed⟩, h.tasks⟩
  | dispatch mid msg hpc =>
    refine ⟨by rintro ⟨⟩, h.stats, by rintro ⟨⟩, ?_⟩
    rw [List.forall_mem_append, List.forall_mem_singleton]
    exact ⟨h.tasks, rfl⟩
  | flushed | sync | synced => exact ⟨by rintro ⟨⟩, h.stats, by rintro ⟨⟩, h.tasks⟩
  | syncPanic | panic => cases hl
  | start i mid msg hi => exact ⟨h.running, h.stats, h.drained, h.set i rfl⟩
  | finish i mid msg resp hi => exact ⟨h.running, h.stats, h.drained, h.set i rfl⟩
  | send i mid msg resp hi => exact ⟨h.running, h.stats, h.drained, h.set i rfl⟩

/-- Nobody is left to send: the queue is empty and the tasks have sent. -/
theorem Lively.answeredOnce (h : Lively s) (hk : Kept s) (hsilent : view.silent s = true) :
    AnsweredOnce s.accepted s.returned s.stx := by
  obtain ⟨hgone, htasks⟩ := Bool.and_eq_true_iff.1 hsilent
  have hpc : s.pc = .ended := by
    have := h.running
    cases hpc : s.pc <;> simp_all [Pc.gone]
  have hsent : ∀ t ∈ s.tasks, ∃ resp, t.stage = .sent resp := by
    intro t ht
    have hgone := List.all_eq_true.1 htasks t ht
    have hpanicked := h.tasks t ht
    cases hstage : t.stage <;> simp_all [CallStage.gone, CallStage.isPanicked]
  have hcalls := hk.calls
  rw [hpc, Pc.held, List.append_nil] at hcalls
  · constructor
    · rw [accepted, (h.drained hpc).1, List.append_nil, ← hcalls, returned, List.map_filterMap,
        ← List.filterMap_eq_map]
      refine List.filterMap_congr fun t ht => ?_
      obtain ⟨resp, hresp⟩ := hsent t ht
      simp [hresp]
    · refine hk.answers.trans (.of_eq ?_)
      rw [returned, List.map_filterMap]
      refine List.filterMap_congr fun t ht => ?_
      obtain ⟨resp, hresp⟩ := hsent t ht
      simp [answer?, hresp]
  · simp

theorem answeredOnce (hmax : cfg.maxParallel ≤ 4294967295)
    (hr : ((bufferUnorderedPoller M R E cfg).restrict fun l => returns l && l.noStats).Reachable s)
    (hsilent : view.silent s = true) : AnsweredOnce s.accepted s.returned s.stx := by
  have h : Lively s := by
    refine Lts.invariant (lively_start hmax) (fun s l s' h hs => ?_) hr
    obtain ⟨hl, hs⟩ := Lts.restrict_step.1 hs
    obtain ⟨hl, hstats⟩ := Bool.and_eq_true_iff.1 hl
    exact lively_step h hl hstats hs
  have hk : Kept s := Lts.invariant .start (fun _ _ _ => kept_step) hr.of_restrict
  exact h.answeredOnce hk hsilent

end BufferUnordered

/-- Nothing has stopped the loop before the end of its queue. -/
structure Subscription.Lively {M R E H : Type} (c : Subscription M R E H) : Prop where
  running : c.pc ≠ .aborted
  stats : Request.action .stats ∉ c.rx
  drained : c.pc = .ended → c.rx = [] ∧ c.closed = true

theorem Subscription.lively_body {M R E H : Type} {c : Subscription M R E H} (h : c.Lively)
    (hpc : c.pc = .recv) {item : Request M} {rx : List (Request M)} (hrx : c.rx = item :: rx) :
    (Subscription.body { c with rx := rx, taken := c.taken ++ [item] } item).Lively := by
  have hstats := h.stats
  rw [hrx, List.mem_cons, not_or] at hstats
  rcases item with a | ⟨mid, msg, req⟩
  · rcases a with id | _ | _ | _ | _
    · exact ⟨h.running, hstats.2, fun hp => by simp [body, emit, hpc] at hp⟩
    · exact ⟨h.running, hstats.2, fun hp => by simp [body, emit, hpc] at hp⟩
    · exact ⟨by rintro ⟨⟩, hstats.2, by rintro ⟨⟩⟩
    · exact ⟨h.running, hstats.2, fun hp => by simp [body, hpc] at hp⟩
    · exact absurd rfl hstats.1
  · exact ⟨by rintro ⟨⟩, hstats.2, by rintro ⟨⟩⟩

namespace ItemCall

variable {ι H : Type} [DecidableEq ι] {M R E : ι → Type} {f : SynchronizedHandler M R E H} {i : ι}

/-- The message of a call of the subscription. -/
def call? (i : ι) : ItemCall M → Option (UInt64 × M i)
  | .handle j mid msg => if hj : j = i then some (mid, hj ▸ msg) else none
  | .sync _ => none

/-- The call of the subscription with what it returned, in the state it began in. -/
def returned? (f : SynchronizedHandler M R E H) (i : ι) (h : H) (c : ItemCall M) :
    Option (UInt64 × M i × Except (E i) (R i)) :=
  (c.call? i).bind fun (mid, msg) => (f.handle i h msg).2.map fun resp => (mid, msg, resp)

/-- The calls of the subscription among those made in sequence, with what they returned. -/
def returned (f : SynchronizedHandler M R E H) (i : ι) : H → List (ItemCall M) →
    List (UInt64 × M i × Except (E i) (R i))
  | _, [] => []
  | h, c :: cs => (c.returned? f i h).toList ++ returned f i (c.apply f h) cs

theorem map_returned (hf : ∀ h msg, (f.handle i h msg).2.isSome = true) :
    ∀ (h : H) (cs : List (ItemCall M)),
      (returned f i h cs).map (fun c => (c.1, c.2.1)) = cs.filterMap (call? i)
  | _, [] => rfl
  | h, c :: cs => by
    rw [returned, List.map_append, map_returned hf, List.filterMap_cons]
    rcases hc : c.call? i with _ | ⟨mid, msg⟩
    · simp [returned?, hc]
    · obtain ⟨resp, hresp⟩ := Option.isSome_iff_exists.1 (hf h msg)
      simp [returned?, hc, hresp]

/-- The `Response` of the subscription that an event is. -/
def answer? (i : ι) (e : Σ i, Event (R i) (E i)) :
    Option (UInt64 × Except (Error Unit (E i)) (R i)) :=
  if h : e.1 = i then Event.answer? (h ▸ e.2) else none

theorem answers_replay : ∀ (h : H) (cs : List (ItemCall M)),
    (replay f h cs).filterMap (answer? i)
      = (returned f i h cs).map fun c => (c.1, c.2.2.mapError .other)
  | _, [] => rfl
  | h, c :: cs => by
    rw [returned, replay, List.map_append, List.filterMap_append, answers_replay]
    congr 1
    cases c with
    | handle j mid msg =>
      by_cases hj : j = i
      · subst hj
        simp only [event, returned?, call?, dif_pos, Option.bind_some]
        cases (f.handle j h msg).2 <;> simp [answer?, Event.answer?]
      · simp only [event, returned?, call?, dif_neg hj, Option.bind_none]
        cases (f.handle j h msg).2 <;> simp [answer?, hj]
    | sync j =>
      by_cases hj : j = i
      · subst hj
        simp only [event, returned?, call?, Option.bind_none]
        cases (f.sync j h).2 <;> simp [answer?, Event.answer?]
      · simp only [event, returned?, call?, Option.bind_none]
        cases (f.sync j h).2 <;> simp [answer?, hj]

end ItemCall

namespace SynchronizedItem

variable {ι H : Type} [DecidableEq ι] {M R E : ι → Type} {f : SynchronizedHandler M R E H}
  {h₀ : H} {i : ι} {s s' : SynchronizedItem M R E H} {l : ItemLabel M}

theorem lively_step (hhandle : ∀ h msg, (f.handle i h msg).2.isSome = true)
    (hsync : ∀ h, (f.sync i h).2.isSome = true) (h : (s.subs i).Lively)
    (hl : ∀ item, l = .push i item → item ≠ .action .stats) (hs : s.step f l = some s') :
    (s'.subs i).Lively := by
  have hset : ∀ (j : ι) (c : Subscription (M j) (R j) (E j) H), (j = i → c.Lively) →
      ((s.set j c).subs i).Lively := fun j c hc =>
    forall_set (J := fun j c => j = i → c.Lively) (fun j hj => hj ▸ h) hc i rfl
  cases move hs with
  | push j item hclosed =>
    refine hset j _ ?_
    rintro rfl
    refine ⟨h.running, ?_, fun hp => ?_⟩
    · rw [List.mem_append, not_or, List.mem_singleton]
      exact ⟨h.stats, Ne.symm (hl item rfl)⟩
    · rw [(h.drained hp).2] at hclosed
      cases hclosed
  | take j item rx hpc hrx =>
    refine hset j _ ?_
    rintro rfl
    exact Subscription.lively_body h hpc hrx
  | ends j _ hrx hclosed =>
    refine hset j _ ?_
    rintro rfl
    exact ⟨by rintro ⟨⟩, h.stats, fun _ => ⟨hrx, hclosed⟩⟩
  | call j | callSync j | respond j | report j =>
    refine hset j _ ?_
    rintro rfl
    exact ⟨by rintro ⟨⟩, h.stats, by rintro ⟨⟩⟩
  | handled j mid msg seen =>
    refine hset j _ ?_
    rintro rfl
    obtain ⟨resp, hresp⟩ := Option.isSome_iff_exists.1 (hhandle seen msg)
    rw [hresp]
    exact ⟨by rintro ⟨⟩, h.stats, by rintro ⟨⟩⟩
  | synced j seen =>
    refine hset j _ ?_
    rintro rfl
    obtain ⟨resp, hresp⟩ := Option.isSome_iff_exists.1 (hsync seen)
    rw [hresp]
    exact ⟨by rintro ⟨⟩, h.stats, by rintro ⟨⟩⟩

theorem lively_of_reachable (hhandle : ∀ h msg, (f.handle i h msg).2.isSome = true)
    (hsync : ∀ h, (f.sync i h).2.isSome = true)
    (hr : ((synchronizedPoller f h₀ i).restrict PollerLabel.noStats).Reachable s) :
    (s.subs i).Lively := by
  have hstart : ((start h₀ : SynchronizedItem M R E H).subs i).Lively :=
    ⟨by rintro ⟨⟩, List.not_mem_nil, by rintro ⟨⟩⟩
  refine Lts.invariant (J := fun s => (s.subs i).Lively) hstart (fun s l s' h hs => ?_) hr
  obtain ⟨hl, hs⟩ := Lts.restrict_step.1 hs
  cases l with
  | push item =>
    have hs : s.step f (.push i item) = some s' := hs
    refine lively_step hhandle hsync h (fun item' heq => ?_) hs
    cases heq
    rintro rfl
    cases hl
  | run l =>
    obtain ⟨hs, hpush⟩ := poller_run hs
    exact lively_step hhandle hsync h (fun item heq => absurd heq (hpush item)) hs

theorem linear_of_poller (hr : (synchronizedPoller f h₀ i).Reachable s) : Linear f h₀ s := by
  refine Lts.invariant linear_start (fun s l s' h hs => ?_) hr
  cases l with
  | push item => exact linear_step h (show s.step f (.push i item) = some s' from hs)
  | run l => exact linear_step h (poller_run hs).1

theorem answers_stx (c : Subscription (M i) (R i) (E i) H) :
    (answers i c).filterMap (ItemCall.answer? i) = c.stx.filterMap Event.answer? := by
  rw [answers, List.filterMap_map, List.filterMap_filter]
  refine List.filterMap_congr fun ev _ => ?_
  cases ev <;> simp [Event.ofCall, ItemCall.answer?, Event.answer?]

theorem call?_itemCall? (item : Request (M i)) :
    (item.itemCall? i).bind (ItemCall.call? i) = item.call? := by
  rcases item with a | ⟨mid, msg, req⟩
  · cases a <;> rfl
  · simp [Request.itemCall?, ItemCall.call?, Request.call?]

theorem filter_call? (calls : List (ItemCall M)) :
    (calls.filter (·.sub = i)).filterMap (ItemCall.call? i)
      = calls.filterMap (ItemCall.call? i) := by
  rw [List.filterMap_filter]
  refine List.filterMap_congr fun c _ => ?_
  cases c with
  | handle j mid msg => by_cases hj : j = i <;> simp [ItemCall.sub, ItemCall.call?, hj]
  | sync j => exact ite_self _

theorem filter_answer? (evs : List (Σ i, Event (R i) (E i))) :
    (evs.filter (·.1 = i)).filterMap (ItemCall.answer? i)
      = evs.filterMap (ItemCall.answer? i) := by
  rw [List.filterMap_filter]
  refine List.filterMap_congr fun e _ => ?_
  by_cases he : e.1 = i <;> simp [ItemCall.answer?, he]

/-- The loop is gone: every message it took was in one call, and that call is answered. -/
theorem answeredOnce (hhandle : ∀ h msg, (f.handle i h msg).2.isSome = true)
    (hsync : ∀ h, (f.sync i h).2.isSome = true)
    (hr : ((synchronizedPoller f h₀ i).restrict PollerLabel.noStats).Reachable s)
    (hsilent : (view i).silent s = true) :
    AnsweredOnce (s.subs i).accepted (ItemCall.returned f i h₀ s.calls) (s.subs i).stx := by
  have hlively := lively_of_reachable hhandle hsync hr
  obtain ⟨horder, hevents⟩ := (linear_of_poller hr.of_restrict).part i
  have hpc : (s.subs i).pc = .ended := by
    have hgone : (s.subs i).pc.gone = true := hsilent
    have := hlively.running
    cases hpc : (s.subs i).pc <;> simp_all [Subscription.Pc.gone]
  have hpending : (s.subs i).pc.pending i = [] := by rw [hpc]; rfl
  have hunsent : (s.subs i).pc.unsent i = [] := by rw [hpc]; rfl
  rw [hpending, List.append_nil] at horder
  rw [hunsent, List.append_nil] at hevents
  constructor
  · calc ((ItemCall.returned f i h₀ s.calls).map fun c => (c.1, c.2.1))
        = s.calls.filterMap (ItemCall.call? i) := ItemCall.map_returned hhandle h₀ s.calls
      _ = (s.calls.filter (·.sub = i)).filterMap (ItemCall.call? i) := (filter_call? s.calls).symm
      _ = (s.subs i).taken.filterMap Request.call? := by
          rw [horder, List.filterMap_filterMap]
          exact List.filterMap_congr fun item _ => call?_itemCall? item
      _ = (s.subs i).accepted.filterMap Request.call? := by
          rw [Subscription.accepted, (hlively.drained hpc).1, List.append_nil]
  · refine .of_eq ?_
    rw [← answers_stx, hevents, filter_answer?, ItemCall.answers_replay]

end SynchronizedItem

/-- When the event loop of an unbatched receiver sees the end of its stream, it has processed one
`Response` for each accepted message, with what the handler returned for it. -/
theorem unbatched_answered_once {ι B H M R E : Type} [DecidableEq ι] [StdSyncSendError E]
    {Mi Ri Ei : ι → Type} [∀ i, StdSyncSendError (Ei i)] (limit : UInt64) (intoBoxed : R → B) :
    (∀ maxParallel ≤ 4294967295, AnsweredAtEnd intoBoxed limit
      ((bufferUnorderedPoller M R E ⟨maxParallel⟩).restrict
        fun l => BufferUnordered.returns l && l.noStats)
      BufferUnordered.view BufferUnordered.accepted BufferUnordered.returned)
    ∧ ∀ (f : SynchronizedHandler Mi Ri Ei H) (h₀ : H) (i : ι) (intoBoxed : Ri i → B),
      (∀ h msg, (f.handle i h msg).2.isSome = true) → (∀ h, (f.sync i h).2.isSome = true) →
      AnsweredAtEnd intoBoxed limit ((synchronizedPoller f h₀ i).restrict PollerLabel.noStats)
        (SynchronizedItem.view i) (fun s => (s.subs i).accepted)
        (fun s => ItemCall.returned f i h₀ s.calls) := by
  constructor
  · intro maxParallel hmax s s' hr hs
    obtain ⟨hprocessed, hsilent⟩ := endStream_eq_some hs
    rw [hprocessed]
    exact BufferUnordered.answeredOnce hmax (poller_reachable hr) hsilent
  · intro f h₀ i intoBoxed hhandle hsync s s' hr hs
    obtain ⟨hprocessed, hsilent⟩ := endStream_eq_some hs
    rw [hprocessed]
    exact SynchronizedItem.answeredOnce hhandle hsync (poller_reachable hr) hsilent

/-- One message and a `Close` behind it, for a receiver of either kind. -/
theorem answered_before_close :
    (∃ s s', (servedReceiver (id : ℕ → ℕ) 1 ((bufferUnorderedPoller ℕ ℕ GenericError ⟨1⟩).restrict
        fun l => BufferUnordered.returns l && l.noStats) BufferUnordered.view).Reachable s
      ∧ (servedReceiver (id : ℕ → ℕ) 1 ((bufferUnorderedPoller ℕ ℕ GenericError ⟨1⟩).restrict
        fun l => BufferUnordered.returns l && l.noStats) BufferUnordered.view).step s .endStream
          = some s'
      ∧ s.processed BufferUnordered.view = [.response 1 (.ok 7)]
      ∧ AnsweredOnce s.poller.accepted s.poller.returned (s.processed BufferUnordered.view))
    ∧ let f : SynchronizedHandler (fun _ : Unit => ℕ) (fun _ => ℕ) (fun _ => GenericError) ℕ :=
        ⟨fun _ h n => (h + n, some (.ok h)), fun _ h => (h, some (.ok ()))⟩
      ∃ s s', (servedReceiver (id : ℕ → ℕ) 1
          ((synchronizedPoller f 5 ()).restrict PollerLabel.noStats)
          (SynchronizedItem.view ())).Reachable s
        ∧ (servedReceiver (id : ℕ → ℕ) 1 ((synchronizedPoller f 5 ()).restrict PollerLabel.noStats)
          (SynchronizedItem.view ())).step s .endStream = some s'
        ∧ s.processed (SynchronizedItem.view ()) = [.response 1 (.ok 5)]
        ∧ AnsweredOnce (s.poller.subs ()).accepted (ItemCall.returned f () 5 s.poller.calls)
          (s.processed (SynchronizedItem.view ())) := by
  constructor
  · have hr : (servedReceiver (id : ℕ → ℕ) 1
        ((bufferUnorderedPoller ℕ ℕ GenericError ⟨1⟩).restrict
          fun l => BufferUnordered.returns l && l.noStats) BufferUnordered.view).run
        [.push (.request 1 2 true), .push (.action .close), .run .recv, .run .acquire,
          .run (.start 0), .run .recv, .run .recv, .run (.finish 0 (.ok 7)), .run (.send 0), .turn]
        = some _ := rfl
    have hreach := Lts.reachable_of_run hr
    exact ⟨_, _, hreach, rfl, rfl, (@unbatched_answered_once Unit ℕ Unit ℕ ℕ GenericError _ _
      (fun _ => Unit) (fun _ => Unit) (fun _ => GenericError) _ 1 id).1 1 (by omega) _ _ hreach rfl⟩
  · intro f
    have hr : (servedReceiver (id : ℕ → ℕ) 1
        ((synchronizedPoller f 5 ()).restrict PollerLabel.noStats) (SynchronizedItem.view ())).run
        [.push (.request 1 2 true), .push (.action .close), .run (.recv ()), .run (.acquire ()),
          .run (.finish ()), .run (.send ()), .run (.recv ()), .run (.recv ()), .turn]
        = some _ := rfl
    have hreach := Lts.reachable_of_run hr
    exact ⟨_, _, hreach, rfl, rfl, (@unbatched_answered_once Unit ℕ ℕ Unit Unit GenericError _ _
      (fun _ => ℕ) (fun _ => ℕ) (fun _ => GenericError) _ 1 fun _ => 0).2 f 5 () id
      (fun _ _ => rfl) (fun _ => rfl) _ _ hreach rfl⟩

end MessageBus
