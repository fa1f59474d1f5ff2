import MessageBus.Lib.Semaphore
import MessageBus.Proofs.Counted

/-!
# What the permits of a buffer-unordered poller exclude

A task holds its permit from when it is spawned until its call is over, so whoever has all the
permits has waited for every call of the subscription. A `Flush` and a `Sync` take them all
(`BufferUnordered.Guarded`, `BufferUnorderedBatched.Guarded`), the first once the buffer is with a
task of its own.
-/

namespace MessageBus

open Batching

section Calls

inductive CallPhase where
  | waiting
  | running
  | over
  deriving DecidableEq, Repr

/-- A call of the handler, with the messages it is for. -/
structure HandlerCall (M : Type) where
  phase : CallPhase
  msgs : List (UInt64 × M)

/-- The calls a poller has spawned and what it has done on its own. -/
structure CallView (σ M R E : Type) where
  calls : σ → List (HandlerCall M)
  stx : σ → List (Event R E)
  taken : σ → List (Request M)
  syncing : σ → Bool

variable {M R E σ ℓ : Type}

/-- The calls are for the messages of the items, and all of them are over. -/
def CallView.Settled (V : CallView σ M R E) (items : List (Request M)) (s : σ) : Prop :=
  (V.calls s).flatMap (·.msgs) = items.filterMap Request.call?
    ∧ ∀ c ∈ V.calls s, c.phase = .over

/-- A `Flushed` the next step sends finds every message taken before its `Flush` settled. -/
def CallView.Barrier (V : CallView σ M R E) (P : Lts σ (PollerLabel M ℓ)) (s : σ) : Prop :=
  ∀ l s', P.step s l = some s' → V.stx s' = V.stx s ++ [.flushed] →
    ∃ items, V.taken s' = items ++ [.action .flush] ∧ V.Settled items s'

/-- At most `max` calls run, `Flushed` is a barrier, and no call runs beside `sync`. -/
structure CallView.Exclusive (V : CallView σ M R E) (P : Lts σ (PollerLabel M ℓ)) (max : ℕ)
    (s : σ) : Prop where
  parallel : (V.calls s).countP (·.phase = .running) ≤ max
  barrier : V.Barrier P s
  sync : V.syncing s = true → ∀ c ∈ V.calls s, c.phase ≠ .running

theorem call?_append_flush (items : List (Request M)) :
    (items ++ [Request.action .flush]).filterMap Request.call? = items.filterMap Request.call? := by
  simp [Request.call?]

/-- A task is busy as long as its call is not over. -/
def HandlerCall.busy (c : HandlerCall M) : Bool := c.phase ≠ .over

theorem running_le {τ : Type} (call : τ → HandlerCall M) (tasks : List τ) :
    (tasks.map call).countP (·.phase = .running) ≤ tasks.countP fun t => (call t).busy := by
  rw [List.countP_map]
  refine List.countP_mono_left fun t _ h => ?_
  simp only [Function.comp_apply, decide_eq_true_eq] at h
  simp [HandlerCall.busy, h]

theorem over_of_idle {τ : Type} {call : τ → HandlerCall M} {tasks : List τ}
    (h : ∀ t ∈ tasks, (call t).busy = false) : ∀ c ∈ tasks.map call, c.phase = .over := by
  simpa [HandlerCall.busy] using h

theorem snoc_ne_self {α : Type} (l : List α) (a : α) : l ≠ l ++ [a] := by simp

end Calls

variable {M R E : Type}

section Unbatched

def CallStage.phase : CallStage R E → CallPhase
  | .spawned => .waiting
  | .handling => .running
  | _ => .over

def CallTask.call (t : CallTask M R E) : HandlerCall M := ⟨t.stage.phase, [(t.mid, t.msg)]⟩

namespace BufferUnordered

def Pc.isSyncing : Pc M → Bool
  | .syncing => true
  | _ => false

def callView : CallView (BufferUnordered M R E) M R E where
  calls s := s.tasks.map CallTask.call
  stx s := s.stx
  taken s := s.taken
  syncing s := s.pc.isSyncing

/-- The permits a sync holds. -/
def Pc.locks (cfg : BufferUnorderedConfig) (pc : Pc M) : ℕ :=
  if pc.isSyncing then allPermits cfg else 0

/-- The permits are shared out, and a flush waits for them right after its `Flush`. -/
structure Guarded (cfg : BufferUnorderedConfig) (s : BufferUnordered M R E) : Prop where
  shares : Semaphore.Shares (fun t => t.call.busy) cfg.maxParallel s.permits s.tasks
    (s.pc.locks cfg)
  flushing : s.pc = .flushAll → ∃ items, s.taken = items ++ [.action .flush]

variable {cfg : BufferUnorderedConfig} {s s' : BufferUnordered M R E}
  {l : PollerLabel M (Label R E)}

theorem guarded_start : Guarded cfg (start cfg : BufferUnordered M R E) := by
  unfold start
  split_ifs <;> exact ⟨.start _, by rintro ⟨⟩⟩

theorem guarded_body (h : Guarded cfg s) (hpc : s.pc = .recv) (item : Request M)
    (rx : List (Request M)) :
    Guarded cfg (body { s with rx := rx, taken := s.taken ++ [item] } item) := by
  have hshares := h.shares
  rw [hpc] at hshares
  rcases item with a | ⟨mid, msg, req⟩
  · rcases a with id | _ | _ | _ | _
    · exact ⟨h.shares, fun hp => absurd hp (by simp [body, emit, hpc])⟩
    · exact ⟨hshares, fun _ => ⟨s.taken, rfl⟩⟩
    · exact ⟨hshares, by rintro ⟨⟩⟩
    · exact ⟨h.shares, fun hp => absurd hp (by simp [body, hpc])⟩
    · exact ⟨hshares, by rintro ⟨⟩⟩
  · exact ⟨hshares, by rintro ⟨⟩⟩

theorem guarded_step (h : Guarded cfg s) (hs : s.step cfg l = some s') : Guarded cfg s' := by
  have hshares := h.shares
  cases move hs with
  | push item => exact ⟨h.shares, h.flushing⟩
  | take item rx hpc => exact guarded_body h hpc item rx
  | ends hpc =>
    rw [hpc] at hshares
    exact ⟨hshares, by rintro ⟨⟩⟩
  | dispatch mid msg hpc hfree =>
    rw [hpc] at hshares
    exact ⟨hshares.spawn hfree rfl, by rintro ⟨⟩⟩
  | flushed hpc =>
    rw [hpc] at hshares
    exact ⟨hshares, by rintro ⟨⟩⟩
  | sync hpc hfree =>
    rw [hpc] at hshares
    exact ⟨hshares.take hfree, by rintro ⟨⟩⟩
  | synced resp hpc | syncPanic hpc =>
    rw [hpc] at hshares
    exact ⟨hshares.give, by rintro ⟨⟩⟩
  | start i mid msg hi => exact ⟨hshares.set hi rfl, h.flushing⟩
  | finish i mid msg resp hi => exact ⟨hshares.release hi rfl rfl, h.flushing⟩
  | panic i mid msg hi => exact ⟨hshares.release hi rfl rfl, h.flushing⟩
  | send i mid msg resp hi => exact ⟨hshares.set hi rfl, h.flushing⟩

theorem calls_of_kept (h : Kept s) (hpc : s.pc.held = []) :
    (callView.calls s).flatMap (·.msgs) = s.taken.filterMap Request.call? := by
  have hcalls := h.calls
  rw [hpc, List.append_nil] at hcalls
  rw [← hcalls, List.map_eq_flatMap]
  exact List.flatMap_map ..

theorem Guarded.barrier (h : Guarded cfg s) (hk : Kept s) (hmax : cfg.maxParallel ≤ 4294967295) :
    callView.Barrier (bufferUnorderedPoller M R E cfg) s := by
  intro l s' hs hstx
  replace hstx : s'.stx = s.stx ++ [.flushed] := hstx
  have hne := snoc_ne_self s.stx Event.flushed
  have hs : s.step cfg l = some s' := hs
  cases move hs with
  | flushed hpc hfree =>
    obtain ⟨items, htaken⟩ := h.flushing hpc
    refine ⟨items, htaken, ?_, ?_⟩
    · rw [← call?_append_flush, ← htaken]
      exact calls_of_kept (s := s) hk (by rw [hpc]; rfl)
    · exact over_of_idle (h.shares.idle (by unfold allPermits at hfree; omega))
  | take item rx hpc hrx =>
    rcases item with a | ⟨mid, msg, req⟩
    · cases a <;> simp [body, emit] at hstx
    · simp [body] at hstx
  | synced | send => simp [emit] at hstx
  | _ => exact absurd hstx hne

theorem exclusive (hmax : cfg.maxParallel ≤ 4294967295)
    (hr : (bufferUnorderedPoller M R E cfg).Reachable s) :
    callView.Exclusive (bufferUnorderedPoller M R E cfg) cfg.maxParallel s := by
  have h : Guarded cfg s := Lts.invariant guarded_start (fun _ _ _ => guarded_step) hr
  have hk : Kept s := Lts.invariant .start (fun _ _ _ => kept_step) hr
  refine ⟨?_, h.barrier hk hmax, ?_⟩
  · exact Nat.le_trans (running_le _ _) h.shares.busy_le
  · intro hsync c hc
    have hlocks : s.pc.locks cfg = cfg.maxParallel := by
      simp only [Pc.locks, show s.pc.isSyncing = true from hsync, if_true, allPermits]
      omega
    rw [over_of_idle (h.shares.idle (by omega)) c hc]
    rintro ⟨⟩

end BufferUnordered

end Unbatched

section Batched

def TaskStage.phase : TaskStage R E → CallPhase
  | .spawned => .waiting
  | .handling => .running
  | .sending _ => .over

def Batch.calls (b : Batch M) : List (UInt64 × M) := (b.mids.zip b.msgs).map fun p => (p.1.1, p.2)

def BatchTask.call (t : BatchTask M R E) : HandlerCall M := ⟨t.stage.phase, t.batch.calls⟩

theorem calls_of (l : List ((UInt64 × Bool) × M)) :
    (Batch.of l).calls = l.map fun p => (p.1.1, p.2) := by
  simp [Batch.calls, Batch.of, List.zip_map']

theorem calls_cmds (items : List (Request M)) : items.filterMap Request.call?
    = ((items.filterMap Request.cmd?).filterMap Cmd.put?).map fun p => (p.1.1, p.2) := by
  rw [List.filterMap_filterMap, List.map_filterMap]
  refine List.filterMap_congr fun item _ => ?_
  rcases item with a | ⟨mid, msg, req⟩
  · cases a <;> rfl
  · rfl

/-- With the buffer empty, the batches are the messages taken. -/
theorem Shows.calls {b : ℕ} {batches : List (Batch M)} {taken : List (Request M)}
    (h : Shows b batches ⟨[], []⟩ taken) :
    batches.flatMap Batch.calls = taken.filterMap Request.call? := by
  obtain ⟨hbatches, hbuffer⟩ := h
  have hempty : (split b (taken.filterMap Request.cmd?)).buffer = [] := by
    simpa [Batch.of] using hbuffer
  have hmap : Batch.calls ∘ Batch.of = List.map fun p : (UInt64 × Bool) × M => (p.1.1, p.2) :=
    funext calls_of
  rw [calls_cmds, ← flatten_split b, hempty, List.append_nil, hbatches, List.flatMap_def,
    List.map_map, hmap, List.map_flatten]

/-- The messages of the buffer are as many as its mids. -/
theorem Shows.buffered_nil {b : ℕ} {batches : List (Batch M)} {buffer : Batch M}
    {taken : List (Request M)} (h : Shows b batches buffer taken)
    (hb : buffer.mids.isEmpty = true) : buffer = ⟨[], []⟩ := by
  obtain ⟨-, rfl⟩ := h
  have hempty : (split b (taken.filterMap Request.cmd?)).buffer = [] := by
    simpa [Batch.of] using hb
  rw [hempty]
  rfl

def BufferUnorderedPc.isSyncing : BufferUnorderedPc M → Bool
  | .syncing => true
  | _ => false

def BufferUnorderedPc.isFlushing : BufferUnorderedPc M → Bool
  | .flushAcquire _ | .flushAll => true
  | _ => false

/-- The permits a sync holds. -/
def BufferUnorderedPc.locks (cfg : BufferUnorderedBatchedConfig) (pc : BufferUnorderedPc M) : ℕ :=
  if pc.isSyncing then BufferUnorderedBatched.allPermits cfg else 0

namespace BatchCore

variable {c c' : BatchCore M R E}

/-- No task has a `Flushed` to send. -/
def Mute (c : BatchCore M R E) : Prop := ∀ t ∈ c.tasks, Event.flushed ∉ t.unsent

theorem flushed_not_mem (resp : Except E (List R)) (mids : List (UInt64 × Bool)) :
    Event.flushed ∉ processBatchResult resp mids := by
  unfold processBatchResult
  split
  · rename_i re
    induction mids, re using batchAnswers.induct <;> simp_all [batchAnswers]
  · simp

theorem Mute.spawn (h : c.Mute) (batch : Batch M) : (c.spawn batch).Mute := by
  simp only [Mute, BatchCore.spawn, List.forall_mem_append, List.forall_mem_singleton]
  exact ⟨h, List.not_mem_nil⟩

theorem Mute.set (h : c.Mute) (i : ℕ) {t : BatchTask M R E} (ht : Event.flushed ∉ t.unsent) :
    ∀ t' ∈ c.tasks.set i t, Event.flushed ∉ t'.unsent := by
  intro t' ht'
  rcases List.mem_or_eq_of_mem_set ht' with ht' | rfl
  · exact h t' ht'
  · exact ht

/-- A task's step is not where a `Flushed` comes from. -/
theorem Mute.task (h : c.Mute) (hs : TaskStep c c') :
    c'.Mute ∧ c'.stx ≠ c.stx ++ [.flushed] := by
  rcases hs with hs | hs | hs | hs
  · obtain ⟨batch, -, rfl⟩ := startTask_eq_some hs
    exact ⟨h.set _ List.not_mem_nil, snoc_ne_self _ _⟩
  · obtain ⟨batch, -, rfl⟩ := finishTask_eq_some hs
    exact ⟨h.set _ (flushed_not_mem _ _), snoc_ne_self _ _⟩
  · obtain ⟨batch, ev, evs, hi, rfl⟩ := sendTask_eq_some hs
    have hold : Event.flushed ∉ ev :: evs := h _ (List.mem_of_getElem? hi)
    simp only [List.mem_cons, not_or] at hold
    refine ⟨h.set _ hold.2, ?_⟩
    simp [BatchCore.emit, Ne.symm hold.1]
  · obtain ⟨batch, -, rfl⟩ := panicTask_eq_some hs
    exact ⟨h.set _ List.not_mem_nil, snoc_ne_self _ _⟩

end BatchCore

namespace BufferUnorderedBatched

def callView : CallView (BufferUnorderedBatched M R E) M R E where
  calls s := s.core.tasks.map BatchTask.call
  stx s := s.core.stx
  taken s := s.core.taken
  syncing s := s.pc.isSyncing

/-- The permits are shared out, and a flush waits for them right after its `Flush`, with nothing
left in the buffer. -/
structure Guarded (cfg : BufferUnorderedBatchedConfig) (s : BufferUnorderedBatched M R E) :
    Prop where
  shares : Semaphore.Shares (fun t => t.call.busy) cfg.maxParallel s.permits s.core.tasks
    (s.pc.locks cfg)
  flushing : s.pc.isFlushing = true →
    s.core.buffered = ⟨[], []⟩ ∧ ∃ items, s.core.taken = items ++ [.action .flush]
  mute : s.core.Mute

variable {cfg : BufferUnorderedBatchedConfig} {s s' : BufferUnorderedBatched M R E}

theorem guarded_start : Guarded cfg (start cfg : BufferUnorderedBatched M R E) := by
  unfold start
  split_ifs <;> exact ⟨.start _, by rintro ⟨⟩, List.forall_mem_nil _⟩

theorem guarded_body (h : Guarded cfg s) (hsplit : Splits cfg s) (hpc : s.pc = .recv)
    (item : Request M) (rx : List (Request M)) : Guarded cfg
      (body cfg { s with core.rx := rx, core.taken := s.core.taken ++ [item] } item) := by
  have hshares := h.shares
  rw [hpc] at hshares
  unfold Splits shown at hsplit
  rw [hpc] at hsplit
  rcases item with a | ⟨mid, msg, req⟩
  · rcases a with id | _ | _ | _ | _
    · exact ⟨h.shares, fun hp => absurd hp (by simp [body, hpc, BufferUnorderedPc.isFlushing]),
        h.mute⟩
    · simp only [body]
      split_ifs with hb
      · exact ⟨hshares, fun _ => ⟨hsplit.buffered_nil hb, s.core.taken, rfl⟩, h.mute⟩
      · exact ⟨hshares, fun _ => ⟨rfl, s.core.taken, rfl⟩, h.mute⟩
    · exact ⟨hshares, by rintro ⟨⟩, h.mute⟩
    · exact ⟨h.shares, fun hp => absurd hp (by simp [body, hpc, BufferUnorderedPc.isFlushing]),
        h.mute⟩
    · exact ⟨hshares, by rintro ⟨⟩, h.mute⟩
  · simp only [body]
    split_ifs
    · exact ⟨hshares, by rintro ⟨⟩, h.mute⟩
    · exact ⟨hshares, by rintro ⟨⟩, h.mute⟩

/-- The task of a started call keeps its permit, that of a finished one gives it back. -/
theorem Guarded.task (h : Guarded cfg s) {c : BatchCore M R E} {i : ℕ} :
    ((s.core.startTask i = some c ∨ s.core.sendTask i = some c) →
      Guarded cfg { s with core := c })
    ∧ (((∃ resp, s.core.finishTask i resp = some c) ∨ s.core.panicTask i = some c) →
      Guarded cfg { s with core := c, permits := s.permits + 1 }) := by
  have hshares := h.shares
  constructor
  · rintro (hc | hc)
    · have hmute := (h.mute.task (.start hc)).1
      obtain ⟨batch, hi, rfl⟩ := BatchCore.startTask_eq_some hc
      exact ⟨hshares.set hi rfl, h.flushing, hmute⟩
    · have hmute := (h.mute.task (.send hc)).1
      obtain ⟨batch, ev, evs, hi, rfl⟩ := BatchCore.sendTask_eq_some hc
      exact ⟨hshares.set hi rfl, h.flushing, hmute⟩
  · rintro (⟨resp, hc⟩ | hc)
    · have hmute := (h.mute.task (.finish hc)).1
      obtain ⟨batch, hi, rfl⟩ := BatchCore.finishTask_eq_some hc
      exact ⟨hshares.release hi rfl rfl, h.flushing, hmute⟩
    · have hmute := (h.mute.task (.panic hc)).1
      obtain ⟨batch, hi, rfl⟩ := BatchCore.panicTask_eq_some hc
      exact ⟨hshares.release hi rfl rfl, h.flushing, hmute⟩

theorem guarded_step {l : PollerLabel M (BufferUnorderedBatchedLabel R E)} (h : Guarded cfg s)
    (hsplit : Splits cfg s) (hs : s.step cfg l = some s') : Guarded cfg s' := by
  have hshares := h.shares
  cases move hs with
  | push item => exact ⟨h.shares, h.flushing, h.mute⟩
  | take item rx hpc => exact guarded_body h hsplit hpc item rx
  | ends hpc =>
    rw [hpc] at hshares
    exact ⟨hshares, by rintro ⟨⟩, h.mute⟩
  | dispatch hpc hfree =>
    rw [hpc] at hshares
    exact ⟨hshares.spawn hfree rfl, by rintro ⟨⟩, BatchCore.Mute.spawn (c := s.core.drain) h.mute _⟩
  | flushDispatch batch hpc hfree =>
    rw [hpc] at hshares
    exact ⟨hshares.spawn hfree rfl, fun _ => h.flushing (by rw [hpc]; rfl), h.mute.spawn batch⟩
  | flushed hpc =>
    rw [hpc] at hshares
    exact ⟨hshares, by rintro ⟨⟩, h.mute⟩
  | sync hpc hfree =>
    rw [hpc] at hshares
    exact ⟨hshares.take hfree, by rintro ⟨⟩, h.mute⟩
  | synced resp hpc =>
    rw [hpc] at hshares
    exact ⟨hshares.give, by rintro ⟨⟩, h.mute⟩
  | start i c hc => exact h.task.1 (.inl hc)
  | finish i resp c hc => exact h.task.2 (.inl ⟨resp, hc⟩)
  | send i c hc => exact h.task.1 (.inr hc)

theorem guarded_panic {p : Panic} (h : Guarded cfg s) (hsplit : Splits cfg s)
    (hs : s.panic cfg p = some s') : Guarded cfg s' ∧ Splits cfg s' := by
  obtain ⟨i, c, -, hc, rfl⟩ | ⟨-, hpc, rfl⟩ := panic_cases hs
  · exact ⟨h.task.2 (.inr hc), hsplit.task (.panic hc) _⟩
  · have hshares := h.shares
    unfold Splits shown at hsplit
    rw [hpc] at hshares hsplit
    exact ⟨⟨hshares.give, by rintro ⟨⟩, h.mute⟩, hsplit⟩

theorem guarded_of_reachable
    (hr : (withPanics (bufferUnorderedBatchPoller M R E cfg) (panic cfg)).Reachable s) :
    Guarded cfg s ∧ Splits cfg s := by
  refine Lts.invariant (J := fun s => Guarded cfg s ∧ Splits cfg s)
    ⟨guarded_start, splits_start⟩ (fun s l s' ⟨h, hsplit⟩ hs => ?_) hr
  obtain ⟨l', hl'⟩ | ⟨p, hp⟩ := withPanics_step hs
  · exact ⟨guarded_step h hsplit hl', splits_step hsplit hl'⟩
  · exact guarded_panic h hsplit hp

theorem Guarded.barrier (h : Guarded cfg s) (hsplit : Splits cfg s)
    (hmax : cfg.maxParallel ≤ 4294967295) : callView.Barrier
      (withPanics (bufferUnorderedBatchPoller M R E cfg) (panic cfg)) s := by
  intro l s' hs hstx
  replace hstx : s'.core.stx = s.core.stx ++ [.flushed] := hstx
  have hne := snoc_ne_self s.core.stx Event.flushed
  obtain ⟨l', hl'⟩ | ⟨p, hp⟩ := withPanics_step hs
  · have hl' : s.step cfg l' = some s' := hl'
    cases move hl' with
    | flushed hpc hfree =>
      obtain ⟨hempty, items, htaken⟩ := h.flushing (by rw [hpc]; rfl)
      unfold Splits shown at hsplit
      rw [hpc] at hsplit
      simp only [hempty] at hsplit
      refine ⟨items, htaken, ?_, ?_⟩
      · rw [← call?_append_flush, ← htaken, ← hsplit.calls, BatchCore.batches, List.flatMap_map]
        exact List.flatMap_map ..
      · exact over_of_idle (h.shares.idle (by unfold allPermits at hfree; omega))
    | take item rx hpc hrx =>
      rcases item with a | ⟨mid, msg, req⟩
      · rcases a with id | _ | _ | _ | _
        · simp [body, BatchCore.emit] at hstx
        · simp only [body] at hstx
          split_ifs at hstx <;> exact absurd hstx hne
        · exact absurd hstx hne
        · exact absurd hstx hne
        · exact absurd hstx hne
      · exact absurd hstx hne
    | synced => simp [BatchCore.emit] at hstx
    | start i c hc => exact absurd hstx (h.mute.task (.start hc)).2
    | finish i resp c hc => exact absurd hstx (h.mute.task (.finish hc)).2
    | send i c hc => exact absurd hstx (h.mute.task (.send hc)).2
    | _ => exact absurd hstx hne
  · obtain ⟨i, c, -, hc, rfl⟩ | ⟨-, -, rfl⟩ := panic_cases hp
    · exact absurd hstx (h.mute.task (.panic hc)).2
    · exact absurd hstx hne

theorem exclusive (hmax : cfg.maxParallel ≤ 4294967295)
    (hr : (withPanics (bufferUnorderedBatchPoller M R E cfg) (panic cfg)).Reachable s) :
    callView.Exclusive (withPanics (bufferUnorderedBatchPoller M R E cfg) (panic cfg))
      cfg.maxParallel s := by
  obtain ⟨h, hsplit⟩ := guarded_of_reachable hr
  refine ⟨?_, h.barrier hsplit hmax, ?_⟩
  · exact Nat.le_trans (running_le _ _) h.shares.busy_le
  · intro hsync c hc
    have hlocks : s.pc.locks cfg = cfg.maxParallel := by
      simp only [BufferUnorderedPc.locks, show s.pc.isSyncing = true from hsync, if_true,
        allPermits]
      omega
    rw [over_of_idle (h.shares.idle (by omega)) c hc]
    rintro ⟨⟩

end BufferUnorderedBatched

end Batched

/-- The calls of both kinds of buffer-unordered poller, for any number of permits `acquire_many`
can take at once, whatever the handlers do. -/
theorem buffer_unordered_exclusive (M R E : Type) (maxParallel : ℕ)
    (hmax : maxParallel ≤ 4294967295) :
    (∀ s, (bufferUnorderedPoller M R E ⟨maxParallel⟩).Reachable s →
      BufferUnordered.callView.Exclusive (bufferUnorderedPoller M R E ⟨maxParallel⟩) maxParallel s)
    ∧ ∀ batchSize messageSize s,
      (withPanics (bufferUnorderedBatchPoller M R E ⟨maxParallel, batchSize, messageSize⟩)
        (BufferUnorderedBatched.panic ⟨maxParallel, batchSize, messageSize⟩)).Reachable s →
      BufferUnorderedBatched.callView.Exclusive
        (withPanics (bufferUnorderedBatchPoller M R E ⟨maxParallel, batchSize, messageSize⟩)
          (BufferUnorderedBatched.panic ⟨maxParallel, batchSize, messageSize⟩)) maxParallel s :=
  ⟨fun _ hr => BufferUnordered.exclusive hmax hr,
    fun _ _ _ hr => BufferUnorderedBatched.exclusive hmax hr⟩

/-- One permit and one message, with the `Flush` behind it waiting for the permit. -/
theorem one_permit_exclusive :
    (∃ s, (bufferUnorderedPoller Unit Unit Unit ⟨1⟩).Reachable s
      ∧ s.pc = .flushAll ∧ s.tasks.length = 1
      ∧ BufferUnordered.callView.Exclusive (bufferUnorderedPoller Unit Unit Unit ⟨1⟩) 1 s)
    ∧ ∃ s, (withPanics (bufferUnorderedBatchPoller Unit Unit Unit ⟨1, 2, 0⟩)
        (BufferUnorderedBatched.panic ⟨1, 2, 0⟩)).Reachable s
      ∧ s.pc = .flushAll ∧ s.core.tasks.length = 1
      ∧ BufferUnorderedBatched.callView.Exclusive (withPanics
        (bufferUnorderedBatchPoller Unit Unit Unit ⟨1, 2, 0⟩)
        (BufferUnorderedBatched.panic ⟨1, 2, 0⟩)) 1 s := by
  constructor
  · have hr : (bufferUnorderedPoller Unit Unit Unit ⟨1⟩).run
        [.push (.request 1 () false), .push (.action .flush), .run .recv, .run .acquire,
          .run (.start 0), .run .recv]
        = some ⟨[], false, .flushAll, 0, [⟨1, (), .handling⟩], [],
          [.request 1 () false, .action .flush]⟩ := rfl
    have := Lts.reachable_of_run hr
    exact ⟨_, this, rfl, rfl, (buffer_unordered_exclusive Unit Unit Unit 1 (by omega)).1 _ this⟩
  · have hr : (withPanics (bufferUnorderedBatchPoller Unit Unit Unit ⟨1, 2, 0⟩)
        (BufferUnorderedBatched.panic ⟨1, 2, 0⟩)).run
        [.push (.request 1 () false), .push (.action .flush), .run (.inl .recv),
          .run (.inl .recv), .run (.inl .acquire)]
        = some ⟨⟨[], false, [], [], [⟨⟨[(1, false)], [()]⟩, .spawned⟩], [],
          [.request 1 () false, .action .flush], []⟩, .flushAll, 0⟩ := rfl
    have := Lts.reachable_of_run hr
    exact ⟨_, this, rfl, rfl,
      (buffer_unordered_exclusive Unit Unit Unit 1 (by omega)).2 2 0 _ this⟩

end MessageBus
