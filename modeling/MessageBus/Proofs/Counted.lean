import MessageBus.Proofs.Unbatched

/-!
# The messages of a poller, counted

However a poller spreads its messages over its queue, its buffer and its tasks, those that it still
has are no more than those it has accepted without a `Response` (`Counted`). A panic may leave some
unanswered that it has no more.
-/

namespace MessageBus

section Counts

variable {M R E : Type}

def requests (items : List (Request M)) : ℕ := (items.filterMap Request.mid?).length

def responses (evs : List (Event R E)) : ℕ := (evs.filterMap Event.mid?).length

/-- A `Response`, or another event a poller emits. -/
def Event.Plain (ev : Event R E) : Prop := ev.mid?.isSome = true ∨ ev.fromPoller = true

theorem mid_fromPoller {ev : Event R E} (h : ev.fromPoller = true) : ev.mid? = none := by
  cases ev with
  | ready | flushed | synchronized | error => rfl
  | _ => cases h

theorem plain_of_answer {ev : Event R E} (h : ev.answer?.isSome = true) : ev.Plain := by
  cases ev with
  | response => exact .inl rfl
  | _ => cases h

theorem plain_of_mark {ev : Event R E} (h : ev.mark?.isSome = true) : ev.Plain := by
  cases ev with
  | response => exact .inl rfl
  | ready | flushed | synchronized => exact .inr rfl
  | _ => cases h

@[simp] theorem requests_append (items items' : List (Request M)) :
    requests (items ++ items') = requests items + requests items' := by
  simp [requests]

@[simp] theorem responses_append (evs evs' : List (Event R E)) :
    responses (evs ++ evs') = responses evs + responses evs' := by
  simp [responses]

theorem responses_le_of_prefix {evs evs' : List (Event R E)} (h : evs <+: evs') :
    responses evs ≤ responses evs' :=
  (h.filterMap _).length_le

theorem responses_singleton {ev : Event R E} (h : ev.mid?.isSome = true) : responses [ev] = 1 := by
  obtain ⟨mid, hmid⟩ := Option.isSome_iff_exists.1 h
  simp [responses, hmid]

theorem responses_take_succ {evs : List (Event R E)} {n : ℕ} {ev : Event R E}
    (h : evs[n]? = some ev) :
    responses (evs.take (n + 1)) = responses (evs.take n) + responses [ev] := by
  rw [List.take_add_one, h, Option.toList_some, responses_append]

end Counts

/-- A poller, with the invariant it keeps, that takes in what is pushed and nothing else, and of
whose messages at most those without a `Response` make up its load. -/
structure Counted {M R E σ ℓ : Type} (P : Lts σ (PollerLabel M ℓ)) (V : PollerView σ R E)
    (accepted : σ → List (Request M)) (load : σ → ℕ) (Inv : σ → Prop) : Prop where
  start : Inv P.start
  fresh : accepted P.start = []
  silent : V.stx P.start = []
  step : ∀ s l s', Inv s → P.step s l = some s' → Inv s'
  push : ∀ s item s', P.step s (.push item) = some s' →
    accepted s' = accepted s ++ [item] ∧ V.stx s' = V.stx s
  run : ∀ s l s', P.step s (.run l) = some s' →
    accepted s' = accepted s ∧ V.stx s <+: V.stx s'
  load_le : ∀ s, Inv s → load s + responses (V.stx s) ≤ requests (accepted s)
  quiet : ∀ s, Inv s → ∀ ev ∈ V.stx s, ev.Plain

section Pollers

variable {M R E : Type}

namespace BufferUnordered

variable {cfg : BufferUnorderedConfig}

def running (t : CallTask M R E) : Bool := !t.stage.gone

/-- The messages in the queue, in hand, and with a task that has not answered. -/
def load (s : BufferUnordered M R E) : ℕ :=
  requests s.rx + s.pc.held.length + s.tasks.countP running

theorem running_or_answered (tasks : List (CallTask M R E)) :
    tasks.countP running + (tasks.filterMap answer?).length ≤ tasks.length := by
  induction tasks with
  | nil => exact Nat.le_refl _
  | cons t tasks ih =>
    obtain ⟨mid, msg, stage⟩ := t
    cases stage <;>
      simp only [List.countP_cons, List.filterMap_cons, answer?, running, CallStage.gone,
        List.length_cons, Bool.not_false, Bool.not_true, if_true, Bool.false_eq_true, if_false] <;>
      omega

theorem accepted_body (s : BufferUnordered M R E) (item : Request M) :
    (body s item).accepted = s.accepted ∧ s.stx <+: (body s item).stx := by
  rcases item with a | ⟨mid, msg, req⟩
  · cases a with
    | init id => exact ⟨rfl, List.prefix_append _ _⟩
    | _ => exact ⟨rfl, List.prefix_rfl⟩
  · exact ⟨rfl, List.prefix_rfl⟩

theorem counted (cfg : BufferUnorderedConfig) :
    Counted (bufferUnorderedPoller M R E cfg) view accepted load Kept where
  start := .start
  fresh := rfl
  silent := rfl
  step _ _ _ := kept_step
  push s item s' hs := by
    change s.step cfg (.push item) = some s' at hs
    cases move hs
    exact ⟨by simp [accepted], rfl⟩
  run s l s' hs := by
    change s.step cfg (.run l) = some s' at hs
    cases move hs with
    | take item rx hpc hrx =>
      obtain ⟨ha, hstx⟩ := accepted_body { s with rx := rx, taken := s.taken ++ [item] } item
      exact ⟨by rw [ha]; simp [accepted, hrx], hstx⟩
    | flushed | synced | send => exact ⟨rfl, List.prefix_append _ _⟩
    | _ => exact ⟨rfl, List.prefix_rfl⟩
  load_le s h := by
    have hcalls := congrArg List.length h.calls
    have hanswers := h.answers.length_eq
    have hsplit := running_or_answered s.tasks
    simp only [List.length_append, List.length_map] at hcalls
    show load s + responses s.stx ≤ requests (s.taken ++ s.rx)
    rw [requests_append, load]
    simp only [requests, responses, mids_calls, mids_answers, List.length_map]
    omega
  quiet _ h ev hev := (h.quiet ev hev).elim plain_of_answer .inr

end BufferUnordered

section Synchronized

variable {ι H : Type} {M R E : ι → Type}

def Mark.mid? : Mark → Option UInt64
  | .response mid => some mid
  | _ => none

theorem mids_marks {M : Type} (items : List (Request M)) :
    items.filterMap Request.mid? = (items.filterMap Request.mark?).filterMap Mark.mid? := by
  rw [List.filterMap_filterMap]
  refine List.filterMap_congr fun item _ => ?_
  rcases item with a | ⟨mid, msg, req⟩
  · cases a <;> rfl
  · rfl

theorem mids_event_marks {R E : Type} (evs : List (Event R E)) :
    evs.filterMap Event.mid? = (evs.filterMap Event.mark?).filterMap Mark.mid? := by
  rw [List.filterMap_filterMap]
  refine List.filterMap_congr fun ev _ => ?_
  cases ev <;> rfl

/-- The messages in the queue of a subscription, and the one in hand. -/
def Subscription.load {M R E H : Type} (s : Subscription M R E H) : ℕ :=
  requests s.rx + (s.pc.owes.filterMap Mark.mid?).length

theorem Subscription.InOrder.load_le {M R E : Type} {s : Subscription M R E H} (h : s.InOrder) :
    s.load + responses s.stx ≤ requests s.accepted := by
  have hmarks : (s.pc.owes.filterMap Mark.mid?).length + responses s.stx ≤ requests s.taken := by
    rw [responses, requests, mids_event_marks, mids_marks]
    by_cases hpc : s.pc = .aborted
    · have := (h.order.filterMap Mark.mid?).length_le
      simpa [hpc, Pc.owes] using this
    · rw [← h.owed hpc, List.filterMap_append, List.length_append]
      omega
  unfold load accepted
  rw [requests_append]
  omega

namespace SynchronizedItem

variable [DecidableEq ι] {f : SynchronizedHandler M R E H} {h₀ : H} {i : ι}
  {s s' : SynchronizedItem M R E H}

/-- What a subscription has accepted only a push changes, and its stream only grows. -/
theorem keeps_step {l : ItemLabel M} (hl : ∀ item, l ≠ .push i item)
    (hs : s.step f l = some s') :
    (s'.subs i).accepted = (s.subs i).accepted ∧ (s.subs i).stx <+: (s'.subs i).stx := by
  have hset : ∀ (j : ι) (c : Subscription (M j) (R j) (E j) H),
      (c.accepted = (s.subs j).accepted ∧ (s.subs j).stx <+: c.stx) →
      ((s.set j c).subs i).accepted = (s.subs i).accepted
        ∧ (s.subs i).stx <+: ((s.set j c).subs i).stx := fun j c hc =>
    forall_set (J := fun j c => c.accepted = (s.subs j).accepted ∧ (s.subs j).stx <+: c.stx)
      (fun _ => ⟨rfl, List.prefix_rfl⟩) hc i
  have hend : ∀ (j : ι) (pc : Option (Subscription.Pc (M j) (R j) (E j) H)),
      ((s.subs j).endCall pc).accepted = (s.subs j).accepted
        ∧ (s.subs j).stx <+: ((s.subs j).endCall pc).stx := by
    intro j pc
    cases pc <;> exact ⟨rfl, List.prefix_rfl⟩
  cases move hs with
  | push j item =>
    have hj : i ≠ j := fun hij => by
      subst hij
      exact hl item rfl
    rw [subs_set_ne hj]
    exact ⟨rfl, List.prefix_rfl⟩
  | take j item rx hpc hrx =>
    refine hset j _ ?_
    have hacc : ((s.subs j).taken ++ [item]) ++ rx = (s.subs j).accepted := by
      simp [Subscription.accepted, hrx]
    rcases item with a | ⟨mid, msg, req⟩
    · cases a with
      | init | flush => exact ⟨hacc, List.prefix_append _ _⟩
      | _ => exact ⟨hacc, List.prefix_rfl⟩
    · exact ⟨hacc, List.prefix_rfl⟩
  | handled j => exact hset j _ (hend j _)
  | synced j => exact hset j _ (hend j _)
  | respond j | report j => exact hset j _ ⟨rfl, List.prefix_append _ _⟩
  | ends j | call j | callSync j => exact hset j _ ⟨rfl, List.prefix_rfl⟩

theorem poller_run {l : ItemLabel M}
    (hs : (synchronizedPoller f h₀ i).step s (.run l) = some s') :
    s.step f l = some s' ∧ ∀ item, l ≠ .push i item := by
  cases l with
  | push j item =>
    change (if j = i then none else s.step f (.push j item)) = some s' at hs
    split_ifs at hs with hij
    refine ⟨hs, fun item' h => ?_⟩
    cases h
    exact hij rfl
  | _ => exact ⟨hs, nofun⟩

theorem counted (f : SynchronizedHandler M R E H) (h₀ : H) (i : ι) :
    Counted (synchronizedPoller f h₀ i) (view i) (fun s => (s.subs i).accepted)
      (fun s => (s.subs i).load) (fun s => ∀ i, (s.subs i).InOrder) where
  start := fun _ => .start
  fresh := rfl
  silent := rfl
  step s l s' h hs := by
    cases l with
    | push item =>
      have hs : s.step f (.push i item) = some s' := hs
      exact inOrder_step h hs
    | run l => exact inOrder_step h (poller_run hs).1
  push s item s' hs := by
    change s.step f (.push i item) = some s' at hs
    cases move hs
    simp [Subscription.accepted, view]
  run s l s' hs := keeps_step (poller_run hs).2 (poller_run hs).1
  load_le s h := (h i).load_le
  quiet _ h ev hev := plain_of_mark ((h i).quiet ev hev)

end SynchronizedItem

end Synchronized

section Batched

variable {M R E : Type}

theorem plain_batchAnswers : ∀ (mids : List (UInt64 × Bool)) (re : List R),
    ∀ ev ∈ (batchAnswers mids re : List (Event R E)), ev.Plain
  | [], _ => List.forall_mem_nil _
  | (mid, _) :: mids, r :: re => by
    rw [batchAnswers, List.forall_mem_cons]
    exact ⟨.inl rfl, plain_batchAnswers mids re⟩
  | (mid, _) :: mids, [] => by
    rw [batchAnswers, List.forall_mem_cons]
    exact ⟨.inl rfl, plain_batchAnswers mids []⟩

theorem plain_processBatchResult (resp : Except E (List R)) (mids : List (UInt64 × Bool)) :
    ∀ ev ∈ processBatchResult resp mids, ev.Plain := by
  unfold processBatchResult
  split
  · exact plain_batchAnswers mids _
  · rw [List.forall_mem_append, List.forall_mem_singleton, List.forall_mem_map]
    exact ⟨fun _ _ => .inl rfl, .inr rfl⟩

/-- The events a task has still to send. -/
def BatchTask.unsent (t : BatchTask M R E) : List (Event R E) :=
  match t.stage with
  | .sending evs => evs
  | _ => []

namespace BatchCore

variable {c c' : BatchCore M R E} {held held' : ℕ}

/-- The messages in the queue, in the buffer, and with a task that has not answered. -/
def load (c : BatchCore M R E) : ℕ :=
  requests c.rx + c.bufferMid.length + (c.tasks.flatMap BatchTask.unanswered).length

/-- The messages taken cover those buffered, held for a task, with a task and answered. -/
structure Within (c : BatchCore M R E) (held : ℕ) : Prop where
  count : c.bufferMid.length + held + (c.tasks.flatMap BatchTask.unanswered).length
    + responses c.stx ≤ requests c.taken
  quiet : ∀ ev ∈ c.stx, ev.Plain
  unsent : ∀ t ∈ c.tasks, ∀ ev ∈ t.unsent, ev.Plain

namespace Within

theorem start : Within (start : BatchCore M R E) 0 :=
  ⟨Nat.le_refl _, List.forall_mem_nil _, List.forall_mem_nil _⟩

/-- Only the tasks, the stream, the taken items and the size of the buffer count. -/
theorem congr (h : Within c held) (ht : c'.tasks = c.tasks) (hs : c'.stx = c.stx)
    (hb : c'.bufferMid.length + held' + requests c.taken
      ≤ c.bufferMid.length + held + requests c'.taken) : Within c' held' := by
  obtain ⟨hc, hq, hu⟩ := h
  refine ⟨?_, hs ▸ hq, ht ▸ hu⟩
  rw [ht, hs]
  omega

theorem emit (h : Within c held) {ev : Event R E} (hev : ev.fromPoller = true) :
    Within (c.emit ev) held := by
  refine ⟨?_, ?_, h.unsent⟩
  · have := h.count
    have hzero : responses [ev] = 0 := by simp [responses, mid_fromPoller hev]
    simpa [BatchCore.emit, hzero] using this
  · simp only [BatchCore.emit, List.forall_mem_append, List.forall_mem_singleton]
    exact ⟨h.quiet, .inr hev⟩

theorem spawn {batch : Batch M} (h : Within c (batch.mids.length + held)) :
    Within (c.spawn batch) held := by
  refine ⟨?_, h.quiet, ?_⟩
  · have := h.count
    simp only [BatchCore.spawn, List.flatMap_append, List.flatMap_singleton, List.length_append,
      BatchTask.unanswered, List.length_map]
    omega
  · simp only [BatchCore.spawn, List.forall_mem_append, List.forall_mem_singleton]
    exact ⟨h.unsent, List.forall_mem_nil _⟩

/-- A task moves on, and has no more to answer than before. -/
theorem setTask (h : Within c held) {i : ℕ} {t : BatchTask M R E} (hi : c.tasks[i]? = some t)
    (t' : BatchTask M R E) (hle : t'.unanswered.length ≤ t.unanswered.length)
    (hplain : ∀ ev ∈ t'.unsent, ev.Plain) (handled : List (List M)) :
    Within { c with tasks := c.tasks.set i t', handled := handled } held := by
  refine ⟨?_, h.quiet, ?_⟩
  · have hcount := h.count
    have hset := (Pool.perm_flatMap_set BatchTask.unanswered t' hi).length_eq
    simp only [List.length_append] at hset
    dsimp only
    omega
  · intro t'' ht''
    rcases List.mem_or_eq_of_mem_set ht'' with ht'' | rfl
    · exact h.unsent t'' ht''
    · exact hplain

theorem sendTask (h : Within c held) {i : ℕ} (hs : c.sendTask i = some c') : Within c' held := by
  obtain ⟨batch, ev, evs, hi, rfl⟩ := sendTask_eq_some hs
  have hunsent : ∀ ev' ∈ ev :: evs, ev'.Plain := h.unsent _ (List.mem_of_getElem? hi)
  rw [List.forall_mem_cons] at hunsent
  refine ⟨?_, ?_, ?_⟩
  · have hcount := h.count
    have hset := (Pool.perm_flatMap_set BatchTask.unanswered ⟨batch, .sending evs⟩ hi).length_eq
    have hold : (ev :: evs).filterMap Event.mid?
        = [ev].filterMap Event.mid? ++ evs.filterMap Event.mid? :=
      List.filterMap_append (l := [ev])
    simp only [List.length_append, BatchTask.unanswered, hold] at hset
    simp only [BatchCore.emit, responses_append]
    unfold responses at hcount ⊢
    omega
  · simp only [BatchCore.emit, List.forall_mem_append, List.forall_mem_singleton]
    exact ⟨h.quiet, hunsent.1⟩
  · exact (h.setTask hi ⟨batch, .sending evs⟩ (by
      simp only [BatchTask.unanswered, List.filterMap_cons]
      split <;> simp) hunsent.2 c.handled).unsent

theorem task (h : Within c held) (hs : TaskStep c c') : Within c' held := by
  rcases hs with hs | hs | hs | hs
  · obtain ⟨batch, hi, rfl⟩ := startTask_eq_some hs
    exact h.setTask hi ⟨batch, .handling⟩ (Nat.le_refl _) (List.forall_mem_nil _) _
  · rename_i resp
    obtain ⟨batch, hi, rfl⟩ := finishTask_eq_some hs
    refine h.setTask hi ⟨batch, .sending (processBatchResult resp batch.mids)⟩ ?_
      (plain_processBatchResult resp batch.mids) _
    simp [BatchTask.unanswered, mids_processBatchResult]
  · exact h.sendTask hs
  · obtain ⟨batch, hi, rfl⟩ := panicTask_eq_some hs
    exact h.setTask hi ⟨batch, .sending []⟩ (Nat.zero_le _) (List.forall_mem_nil _) _

end Within

end BatchCore

theorem withPanics_step {σ ℓ : Type} {P : Lts σ (PollerLabel M ℓ)} {panic : σ → Panic → Option σ}
    {s s' : σ} {l : PollerLabel M (ℓ ⊕ Panic)} (hs : (withPanics P panic).step s l = some s') :
    (∃ l', P.step s l' = some s') ∨ ∃ p, panic s p = some s' := by
  rcases l with item | l | p
  · exact .inl ⟨.push item, hs⟩
  · exact .inl ⟨.run l, hs⟩
  · exact .inr ⟨p, hs⟩

/-- A run without a panic is a run. -/
theorem reachable_withPanics {σ ℓ : Type} {P : Lts σ (PollerLabel M ℓ)}
    {panic : σ → Panic → Option σ} {s : σ} (hr : P.Reachable s) :
    (withPanics P panic).Reachable s := by
  induction hr with
  | start => exact .start
  | @step s s' l hr hs ih =>
    cases l with
    | push item => exact ih.step (l := .push item) hs
    | run l => exact ih.step (l := .run (.inl l)) hs

namespace BatchCore

variable {c c' : BatchCore M R E}

/-- A task's step takes in nothing, and sends at most one event. -/
theorem TaskStep.keeps (h : TaskStep c c') : c'.accepted = c.accepted ∧ c.stx <+: c'.stx := by
  refine ⟨by rw [accepted, accepted, h.frame.taken, h.frame.rx], ?_⟩
  rcases h with h | h | h | h
  · obtain ⟨batch, -, rfl⟩ := startTask_eq_some h
    exact List.prefix_rfl
  · obtain ⟨batch, -, rfl⟩ := finishTask_eq_some h
    exact List.prefix_rfl
  · obtain ⟨batch, ev, evs, -, rfl⟩ := sendTask_eq_some h
    exact List.prefix_append _ _
  · obtain ⟨batch, -, rfl⟩ := panicTask_eq_some h
    exact List.prefix_rfl

end BatchCore

/-- The messages drained for a task that waits for its permit. -/
def BufferUnorderedPc.held : BufferUnorderedPc M → ℕ
  | flushAcquire batch => batch.mids.length
  | _ => 0

namespace BufferUnorderedBatched

variable {cfg : BufferUnorderedBatchedConfig} {s s' : BufferUnorderedBatched M R E}

def load (s : BufferUnorderedBatched M R E) : ℕ := s.core.load + s.pc.held

theorem panic_cases {p : Panic} (hs : s.panic cfg p = some s') :
    (∃ i c, p = .task i ∧ s.core.panicTask i = some c
        ∧ s' = { s with core := c, permits := s.permits + 1 })
      ∨ (p = .sync ∧ s.pc = .syncing ∧ s' =
        { s with core.closed := true, pc := .aborted, permits := s.permits + allPermits cfg }) := by
  cases p with
  | task i =>
    obtain ⟨c, hc, rfl⟩ := Option.map_eq_some_iff.1 hs
    exact .inl ⟨i, c, rfl, hc, rfl⟩
  | sync =>
    simp only [panic] at hs
    split at hs
    · cases hs
      exact .inr ⟨rfl, ‹_›, rfl⟩
    · cases hs

theorem within_body {core : BatchCore M R E} (permits : ℕ) (rx : List (Request M))
    (item : Request M) (h : core.Within 0) {t : BufferUnorderedBatched M R E}
    (ht : t = body cfg ⟨{ core with rx := rx, taken := core.taken ++ [item] }, .recv, permits⟩
      item) : t.core.Within t.pc.held := by
  subst ht
  rcases item with a | ⟨mid, msg, req⟩
  · have h' : ({ core with rx := rx, taken := core.taken ++ [.action a] } :
        BatchCore M R E).Within 0 := h.congr rfl rfl (by simp)
    cases a with
    | init id => exact h'.emit rfl
    | flush =>
      simp only [body]
      split_ifs
      · exact h'
      · exact h'.congr rfl rfl
          (by simp [BatchCore.drain, BufferUnorderedPc.held, BatchCore.buffered])
    | close => exact h'.congr rfl rfl (Nat.le_refl _)
    | sync | stats => exact h'
  · have h' : (({ core with rx := rx, taken := core.taken ++ [.request mid msg req] } :
        BatchCore M R E).bufferPush mid msg req).Within 0 := by
      refine h.congr rfl rfl ?_
      simp [BatchCore.bufferPush, requests, Request.mid?]
      omega
    simp only [body]
    split_ifs <;> exact h'

theorem within_step {l : PollerLabel M (BufferUnorderedBatchedLabel R E ⊕ Panic)}
    (h : s.core.Within s.pc.held)
    (hs : (withPanics (bufferUnorderedBatchPoller M R E cfg) (panic cfg)).step s l = some s') :
    s'.core.Within s'.pc.held := by
  obtain ⟨l', hl'⟩ | ⟨p, hp⟩ := withPanics_step hs
  · cases move hl' with
    | push item => exact h.congr rfl rfl (Nat.le_refl _)
    | take item rx hpc hrx =>
      rw [hpc] at h
      exact within_body s.permits rx item h (by rw [hpc])
    | ends hpc =>
      rw [hpc] at h
      exact h
    | dispatch hpc =>
      rw [hpc] at h
      refine BatchCore.Within.spawn (h.congr rfl rfl ?_)
      simp [BatchCore.drain, BatchCore.buffered, BufferUnorderedPc.held]
    | flushDispatch batch hpc =>
      rw [hpc] at h
      exact BatchCore.Within.spawn h
    | flushed hpc =>
      rw [hpc] at h
      exact h.emit rfl
    | sync hpc =>
      rw [hpc] at h
      exact h
    | synced resp hpc =>
      rw [hpc] at h
      exact h.emit rfl
    | start i c hc => exact h.task (.start hc)
    | finish i resp c hc => exact h.task (.finish hc)
    | send i c hc => exact h.task (.send hc)
  · obtain ⟨i, c, -, hc, rfl⟩ | ⟨-, hpc, rfl⟩ := panic_cases hp
    · exact h.task (.panic hc)
    · rw [hpc] at h
      exact h.congr rfl rfl (Nat.le_refl _)

variable (cfg) in
theorem accepted_body (s : BufferUnorderedBatched M R E) (item : Request M) :
    (body cfg s item).core.accepted = s.core.accepted
      ∧ s.core.stx <+: (body cfg s item).core.stx := by
  rcases item with a | ⟨mid, msg, req⟩
  · cases a with
    | init id => exact ⟨rfl, List.prefix_append _ _⟩
    | flush =>
      simp only [body]
      split_ifs <;> exact ⟨rfl, List.prefix_rfl⟩
    | _ => exact ⟨rfl, List.prefix_rfl⟩
  · exact ⟨rfl, List.prefix_rfl⟩

theorem counted (cfg : BufferUnorderedBatchedConfig) :
    Counted (withPanics (bufferUnorderedBatchPoller M R E cfg) (panic cfg)) view
      (fun s => s.core.accepted) load (fun s => s.core.Within s.pc.held) where
  start := by
    have : (start cfg : BufferUnorderedBatched M R E).pc.held = 0 := by
      unfold start
      dsimp only
      split_ifs <;> rfl
    show BatchCore.Within _ (start cfg : BufferUnorderedBatched M R E).pc.held
    rw [this]
    exact .start
  fresh := rfl
  silent := rfl
  step _ _ _ := within_step
  push s item s' hs := by
    have hs : s.step cfg (.push item) = some s' := hs
    cases move hs
    exact ⟨by simp [BatchCore.accepted], rfl⟩
  run s l s' hs := by
    rcases l with l | p
    · have hs : s.step cfg (.run l) = some s' := hs
      cases move hs with
      | take item rx hpc hrx =>
        obtain ⟨ha, hstx⟩ := accepted_body cfg
          { s with core.rx := rx, core.taken := s.core.taken ++ [item] } item
        exact ⟨by rw [ha]; simp [BatchCore.accepted, hrx], hstx⟩
      | start i c hc => exact (BatchCore.TaskStep.start hc).keeps
      | finish i resp c hc => exact (BatchCore.TaskStep.finish hc).keeps
      | send i c hc => exact (BatchCore.TaskStep.send hc).keeps
      | flushed | synced => exact ⟨rfl, List.prefix_append _ _⟩
      | _ => exact ⟨rfl, List.prefix_rfl⟩
    · obtain ⟨i, c, -, hc, rfl⟩ | ⟨-, -, rfl⟩ := panic_cases hs
      · exact (BatchCore.TaskStep.panic hc).keeps
      · exact ⟨rfl, List.prefix_rfl⟩
  load_le s h := by
    have := h.count
    unfold load BatchCore.load BatchCore.accepted
    rw [requests_append]
    show _ + responses s.core.stx ≤ _
    omega
  quiet _ h := h.quiet

end BufferUnorderedBatched

namespace SynchronizedBatched

variable {cfg : SynchronizedBatchedConfig} {s s' : SynchronizedBatched M R E}

theorem panic_cases {p : Panic} (hs : s.panic p = some s') :
    (∃ i c, p = .task i ∧ s.lock.head? = some (.task i) ∧ s.core.panicTask i = some c
        ∧ s' = { s with core := c, lock := s.lock.tail })
      ∨ (p = .sync ∧ s.pc = .syncing
        ∧ s' = { s with core.closed := true, pc := .aborted, lock := s.lock.tail }) := by
  cases p with
  | task i =>
    simp only [panic] at hs
    split_ifs at hs with hlock
    obtain ⟨c, hc, rfl⟩ := Option.map_eq_some_iff.1 hs
    exact .inl ⟨i, c, rfl, hlock, hc, rfl⟩
  | sync =>
    simp only [panic] at hs
    split_ifs at hs with hpc
    cases hs
    exact .inr ⟨rfl, hpc, rfl⟩

theorem within_body {rx : List (Request M)} (item : Request M) (h : s.core.Within 0) :
    (body cfg { s with core.rx := rx, core.taken := s.core.taken ++ [item] } item).core.Within
      0 := by
  have hspawn : ∀ c : BatchCore M R E, c.Within 0 → (c.drain.spawn c.buffered).Within 0 :=
    fun c hc => BatchCore.Within.spawn
      (hc.congr rfl rfl (by simp [BatchCore.drain, BatchCore.buffered]))
  rcases item with a | ⟨mid, msg, req⟩
  · have h' : ({ s.core with rx := rx, taken := s.core.taken ++ [.action a] } :
        BatchCore M R E).Within 0 := h.congr rfl rfl (by simp)
    cases a with
    | init id => exact h'.emit rfl
    | flush =>
      simp only [body]
      split_ifs
      · exact h'.emit rfl
      · exact (hspawn _ h').emit rfl
    | close => exact h'.congr rfl rfl (Nat.le_refl _)
    | sync | stats => exact h'
  · have h' : (({ s.core with rx := rx, taken := s.core.taken ++ [.request mid msg req] } :
        BatchCore M R E).bufferPush mid msg req).Within 0 := by
      refine h.congr rfl rfl ?_
      simp [BatchCore.bufferPush, requests, Request.mid?]
      omega
    simp only [body]
    split_ifs
    · exact hspawn _ h'
    · exact h'

theorem within_step {l : PollerLabel M (SynchronizedBatchedLabel R E ⊕ Panic)}
    (h : s.core.Within 0)
    (hs : (withPanics (batchSynchronizedPoller M R E cfg) panic).step s l = some s') :
    s'.core.Within 0 := by
  obtain ⟨l', hl'⟩ | ⟨p, hp⟩ := withPanics_step hs
  · cases move hl' with
    | push item => exact h.congr rfl rfl (Nat.le_refl _)
    | take item rx hpc hrx => exact within_body item h
    | start i c _ hc => exact h.task (.start hc)
    | finish i resp c _ hc => exact h.task (.finish hc)
    | send i c hc => exact h.task (.send hc)
    | synced => exact h.emit rfl
    | _ => exact h
  · obtain ⟨i, c, -, -, hc, rfl⟩ | ⟨-, -, rfl⟩ := panic_cases hp
    · exact h.task (.panic hc)
    · exact h.congr rfl rfl (Nat.le_refl _)

variable (cfg) in
theorem accepted_body (s : SynchronizedBatched M R E) (item : Request M) :
    (body cfg s item).core.accepted = s.core.accepted
      ∧ s.core.stx <+: (body cfg s item).core.stx := by
  rcases item with a | ⟨mid, msg, req⟩
  · cases a with
    | init id => exact ⟨rfl, List.prefix_append _ _⟩
    | flush =>
      simp only [body]
      split_ifs <;> exact ⟨rfl, List.prefix_append _ _⟩
    | _ => exact ⟨rfl, List.prefix_rfl⟩
  · simp only [body]
    split_ifs <;> exact ⟨rfl, List.prefix_rfl⟩

theorem counted (cfg : SynchronizedBatchedConfig) :
    Counted (withPanics (batchSynchronizedPoller M R E cfg) panic) view
      (fun s => s.core.accepted) (fun s => s.core.load) (fun s => s.core.Within 0) where
  start := .start
  fresh := rfl
  silent := rfl
  step _ _ _ := within_step
  push s item s' hs := by
    have hs : s.step cfg (.push item) = some s' := hs
    cases move hs
    exact ⟨by simp [BatchCore.accepted], rfl⟩
  run s l s' hs := by
    rcases l with l | p
    · have hs : s.step cfg (.run l) = some s' := hs
      cases move hs with
      | take item rx hpc hrx =>
        obtain ⟨ha, hstx⟩ := accepted_body cfg
          { s with core.rx := rx, core.taken := s.core.taken ++ [item] } item
        exact ⟨by rw [ha]; simp [BatchCore.accepted, hrx], hstx⟩
      | start i c _ hc => exact (BatchCore.TaskStep.start hc).keeps
      | finish i resp c _ hc => exact (BatchCore.TaskStep.finish hc).keeps
      | send i c hc => exact (BatchCore.TaskStep.send hc).keeps
      | synced => exact ⟨rfl, List.prefix_append _ _⟩
      | _ => exact ⟨rfl, List.prefix_rfl⟩
    · obtain ⟨i, c, -, -, hc, rfl⟩ | ⟨-, -, rfl⟩ := panic_cases hs
      · exact (BatchCore.TaskStep.panic hc).keeps
      · exact ⟨rfl, List.prefix_rfl⟩
  load_le s h := by
    have := h.count
    unfold BatchCore.load BatchCore.accepted
    rw [requests_append]
    show _ + responses s.core.stx ≤ _
    omega
  quiet _ h := h.quiet

end SynchronizedBatched

end Batched

end Pollers

end MessageBus
