import MessageBus.Proofs.Exclusion

/-!
# What a flush of a synchronized batched poller waits for

Its `Flush` hands the buffer to a task and sends `Flushed` at once, and its `Sync` asks for the
mutex whether or not the tasks have. So they are barriers only where nothing is pending: where no
message came before the `Flush`, and no batch was full before the `Sync`. A poller that panics
before its loop sends no `Flushed` and calls no `sync`.
-/

namespace MessageBus

open Batching

variable {M R E : Type}

/-- The actions the loop comes to have nothing to wait for: no message before a `Flush`, and less
than a batch before a `Sync`. A `Stats` ends the loop. -/
def NothingPending (batchSize : ℕ) (items : List (Request M)) : Prop :=
  ∀ pre post, Request.action .stats ∉ pre →
    (items = pre ++ .action .flush :: post → requests pre = 0)
    ∧ (items = pre ++ .action .sync :: post → requests pre < max 1 batchSize)

theorem requests_cmds (items : List (Request M)) :
    requests items = ((items.filterMap Request.cmd?).filterMap Cmd.put?).length := by
  rw [requests, BatchCore.mids_accepted, List.length_map]

theorem requests_calls (items : List (Request M)) :
    requests items = (items.filterMap Request.call?).length := by
  rw [requests, mids_calls, List.length_map]

theorem eq_flush_of_cmd? {item : Request M} (h : item.cmd? = some .flush) :
    item = .action .flush := by
  rcases item with a | ⟨mid, msg, req⟩
  · cases a <;> first | rfl | cases h
  · cases h

/-- There is enough for a batch, or a `Flush` behind a message. -/
def Dispatches (batchSize : ℕ) (items : List (Request M)) : Prop :=
  max 1 batchSize ≤ requests items
    ∨ ∃ pre post, items = pre ++ .action .flush :: post ∧ 0 < requests pre

theorem closes_iff_dispatches {b : ℕ} {items : List (Request M)} :
    Closes b (items.filterMap Request.cmd?) ↔ Dispatches b items := by
  refine or_congr (by rw [requests_cmds]) ⟨?_, ?_⟩
  · rintro ⟨pre, post, hcmds, hpre⟩
    obtain ⟨pre', post', rfl, rfl, hpost⟩ := List.filterMap_eq_append_iff.1 hcmds
    obtain ⟨skipped, item, post', rfl, -, hitem, -⟩ := List.filterMap_eq_cons_iff.1 hpost
    obtain rfl := eq_flush_of_cmd? hitem
    rw [← List.length_pos_iff, ← requests_cmds] at hpre
    refine ⟨pre' ++ skipped, post', by simp, ?_⟩
    rw [requests_append]
    omega
  · rintro ⟨pre, post, rfl, hpre⟩
    rw [requests_cmds, List.length_pos_iff] at hpre
    exact ⟨_, _, by simp [Request.cmd?]; rfl, hpre⟩

/-- Less than a batch, and no flush behind a message: no batch. -/
theorem batches_eq_nil {b : ℕ} {items : List (Request M)}
    (hflush : ∀ pre post, items = pre ++ .action .flush :: post → requests pre = 0)
    (hlt : requests items < max 1 b) :
    (split b (items.filterMap Request.cmd?)).batches = [] := by
  by_contra hne
  rcases closes_iff_dispatches.1 (batches_ne_nil_iff.1 hne) with h | ⟨pre, post, rfl, hpre⟩
  · omega
  · have := hflush pre post rfl
    omega

theorem batches_of_requests {b : ℕ} {items : List (Request M)} (h : requests items = 0) :
    (split b (items.filterMap Request.cmd?)).batches = [] := by
  refine batches_eq_nil (fun pre post hp => ?_) (by omega)
  subst hp
  simp only [requests_append] at h
  omega

/-- A split without a batch is of less than one. -/
theorem requests_lt {b : ℕ} {items : List (Request M)}
    (h : (split b (items.filterMap Request.cmd?)).batches = []) : requests items < max 1 b := by
  by_contra hlt
  exact batches_ne_nil_iff.2 (closes_iff_dispatches.2 (.inl (by omega))) h

def SynchronizedPc.inSync : SynchronizedPc → Bool
  | .syncAsk | .syncWait | .syncing => true
  | _ => false

namespace SynchronizedBatched

def callView : CallView (SynchronizedBatched M R E) M R E where
  calls s := s.core.tasks.map BatchTask.call
  stx s := s.core.stx
  taken s := s.core.taken
  syncing s := s.pc = .syncing

/-- The loop is past no `Stats`, and in a sync right after its `Sync`. -/
structure Placed (cfg : SynchronizedBatchedConfig) (s : SynchronizedBatched M R E) : Prop where
  splits : Splits cfg s
  mute : s.core.Mute
  stats : s.pc ≠ .aborted → Request.action .stats ∉ s.core.taken
  sync : s.pc.inSync = true → ∃ items, s.core.taken = items ++ [.action .sync]

variable {cfg : SynchronizedBatchedConfig} {s s' : SynchronizedBatched M R E}

variable (cfg) in
theorem taken_body (s : SynchronizedBatched M R E) (item : Request M) :
    (body cfg s item).core.taken = s.core.taken := by
  rcases item with a | ⟨mid, msg, req⟩
  · cases a with
    | flush =>
      simp only [body]
      split_ifs <;> rfl
    | _ => rfl
  · simp only [body]
    split_ifs <;> rfl

/-- Of the items, only a `Flush` is answered by `Flushed` on the spot. -/
theorem stx_body {item : Request M} (hitem : item ≠ .action .flush) :
    (body cfg s item).core.stx ≠ s.core.stx ++ [.flushed] := by
  rcases item with a | ⟨mid, msg, req⟩
  · rcases a with id | _ | _ | _ | _
    · simp [body, BatchCore.emit]
    · exact absurd rfl hitem
    · exact snoc_ne_self _ _
    · exact snoc_ne_self _ _
    · exact snoc_ne_self _ _
  · simp only [body]
    split_ifs <;> exact snoc_ne_self _ _

theorem placed_start : Placed cfg (start cfg : SynchronizedBatched M R E) := by
  refine ⟨splits_start, List.forall_mem_nil _, fun _ => List.not_mem_nil, ?_⟩
  unfold start
  dsimp only
  split_ifs <;> rintro ⟨⟩

theorem placed_body (h : Placed cfg s) (hpc : s.pc = .recv) (item : Request M)
    (rx : List (Request M)) : Placed cfg
      (body cfg { s with core.rx := rx, core.taken := s.core.taken ++ [item] } item) := by
  have hsplits : Splits cfg
      (body cfg { s with core.rx := rx, core.taken := s.core.taken ++ [item] } item) :=
    splits_body item h.splits
  have hstats := h.stats (by simp [hpc])
  have hpush : item ≠ .action .stats → Request.action .stats ∉ s.core.taken ++ [item] := by
    intro hitem
    simp [hstats, Ne.symm hitem]
  rcases item with a | ⟨mid, msg, req⟩
  · rcases a with id | _ | _ | _ | _
    · exact ⟨hsplits, h.mute, fun _ => hpush (by simp),
        fun hp => by simp [body, hpc, SynchronizedPc.inSync] at hp⟩
    · refine ⟨hsplits, ?_, fun _ => ?_, fun hp => by simp [body, hpc, SynchronizedPc.inSync] at hp⟩
      · simp only [body]
        split_ifs
        · exact h.mute
        · exact BatchCore.Mute.spawn (c := s.core.drain) h.mute _
      · simp only [body]
        split_ifs <;> exact hpush (by simp)
    · exact ⟨hsplits, h.mute, fun _ => hpush (by simp), fun _ => ⟨s.core.taken, rfl⟩⟩
    · exact ⟨hsplits, h.mute, fun _ => hpush (by simp),
        fun hp => by simp [body, hpc, SynchronizedPc.inSync] at hp⟩
    · exact ⟨hsplits, h.mute, fun hp => absurd rfl hp, by rintro ⟨⟩⟩
  · refine ⟨hsplits, ?_, fun _ => ?_, fun hp => by simp [body, hpc, SynchronizedPc.inSync] at hp⟩
    · simp only [body]
      split_ifs
      · exact BatchCore.Mute.spawn (c := s.core.drain) h.mute _
      · exact h.mute
    · simp only [body]
      split_ifs <;> exact hpush (by simp)

/-- A task's step leaves the loop where it is. -/
theorem Placed.task (h : Placed cfg s) {c : BatchCore M R E} (hc : BatchCore.TaskStep s.core c)
    (lock : List Holder) : Placed cfg { s with core := c, lock := lock } := by
  refine ⟨h.splits.task hc lock, (h.mute.task hc).1, ?_, ?_⟩
  · rw [hc.frame.taken]
    exact h.stats
  · rw [hc.frame.taken]
    exact h.sync

theorem placed_step {l : PollerLabel M (SynchronizedBatchedLabel R E)} (h : Placed cfg s)
    (hs : s.step cfg l = some s') : Placed cfg s' := by
  have hsplits := splits_step h.splits hs
  cases move hs with
  | take item rx hpc => exact placed_body h hpc item rx
  | ends hpc => exact ⟨hsplits, h.mute, fun _ => h.stats (by simp [hpc]), by rintro ⟨⟩⟩
  | start i c _ hc => exact h.task (.start hc) _
  | finish i resp c _ hc => exact h.task (.finish hc) _
  | send i c hc => exact h.task (.send hc) _
  | askSync hpc | startSync hpc =>
    exact ⟨hsplits, h.mute, fun _ => h.stats (by simp [hpc]), fun _ => h.sync (by rw [hpc]; rfl)⟩
  | synced resp hpc => exact ⟨hsplits, h.mute, fun _ => h.stats (by simp [hpc]), by rintro ⟨⟩⟩
  | _ => exact ⟨hsplits, h.mute, h.stats, h.sync⟩

theorem placed_panic {p : Panic} (h : Placed cfg s) (hs : s.panic p = some s') :
    Placed cfg s' := by
  obtain ⟨i, c, -, -, hc, rfl⟩ | ⟨-, -, rfl⟩ := panic_cases hs
  · exact h.task (.panic hc) _
  · exact ⟨h.splits, h.mute, fun hp => absurd rfl hp, by rintro ⟨⟩⟩

theorem placed_of_reachable
    (hr : (withPanics (batchSynchronizedPoller M R E cfg) panic).Reachable s) : Placed cfg s := by
  refine Lts.invariant placed_start (fun s l s' h hs => ?_) hr
  obtain ⟨l', hl'⟩ | ⟨p, hp⟩ := withPanics_step hs
  · exact placed_step h hl'
  · exact placed_panic h hp

theorem dead_withPanics {l : PollerLabel M (SynchronizedBatchedLabel R E ⊕ Panic)} (h : Dead s)
    (hs : (withPanics (batchSynchronizedPoller M R E cfg) panic).step s l = some s') : Dead s' := by
  obtain ⟨l', hl'⟩ | ⟨p, hp⟩ := withPanics_step hs
  · exact dead_step h hl'
  · obtain ⟨i, c, -, -, hc, -⟩ | ⟨-, hpc, -⟩ := panic_cases hp
    · exact absurd (.panic hc) h.core.not_taskStep
    · rw [h.pc] at hpc
      cases hpc

/-- With nothing put in batches, no call is spawned. -/
theorem Placed.calls_eq_nil (h : Placed cfg s)
    (hnil : (split cfg.batchSize (s.core.taken.filterMap Request.cmd?)).batches = []) :
    callView.calls s = [] := by
  have hbatches := h.splits.1
  rw [hnil, List.map_nil, BatchCore.batches, List.map_eq_nil_iff] at hbatches
  simp [callView, hbatches]

/-- Where nothing is pending, a `Flush` has nothing to wait for. -/
theorem Placed.barrier (h : Placed cfg s) {items : List (Request M)}
    (hn : NothingPending cfg.batchSize items) (hpre : s.core.accepted <+: items) :
    callView.Barrier (withPanics (batchSynchronizedPoller M R E cfg) panic) s := by
  intro l s' hs hstx
  replace hstx : s'.core.stx = s.core.stx ++ [.flushed] := hstx
  have hne := snoc_ne_self s.core.stx Event.flushed
  obtain ⟨l', hl'⟩ | ⟨p, hp⟩ := withPanics_step hs
  · have hl' : s.step cfg l' = some s' := hl'
    cases move hl' with
    | take item rx hpc hrx =>
      by_cases hitem : item = .action .flush
      · subst hitem
        obtain ⟨post, rfl⟩ := hpre
        have hstats := h.stats (by simp [hpc])
        have hzero := (hn s.core.taken (rx ++ post) hstats).1 (by simp [BatchCore.accepted, hrx])
        have htaken := taken_body cfg { s with
          core.rx := rx, core.taken := s.core.taken ++ [.action .flush] } (.action .flush)
        refine ⟨s.core.taken, htaken, ?_⟩
        have hcalls := (placed_body h hpc (.action .flush) rx).calls_eq_nil (by
          rw [htaken]
          exact batches_of_requests (by simpa [requests, Request.mid?] using hzero))
        rw [requests_calls, List.length_eq_zero_iff] at hzero
        unfold CallView.Settled
        rw [hcalls, hzero]
        exact ⟨rfl, List.forall_mem_nil _⟩
      · exact absurd hstx (stx_body hitem)
    | synced => simp [BatchCore.emit] at hstx
    | start i c _ hc => exact absurd hstx (h.mute.task (.start hc)).2
    | finish i resp c _ hc => exact absurd hstx (h.mute.task (.finish hc)).2
    | send i c hc => exact absurd hstx (h.mute.task (.send hc)).2
    | _ => exact absurd hstx hne
  · obtain ⟨i, c, -, -, hc, rfl⟩ | ⟨-, -, rfl⟩ := panic_cases hp
    · exact absurd hstx (h.mute.task (.panic hc)).2
    · exact absurd hstx hne

/-- Where nothing is pending, a `Sync` finds no batch dispatched. -/
theorem Placed.sync_settled (h : Placed cfg s) {items : List (Request M)}
    (hn : NothingPending cfg.batchSize items) (hpre : s.core.accepted <+: items)
    (hsync : s.pc = .syncing) : callView.calls s = [] := by
  obtain ⟨pre, htaken⟩ := h.sync (by rw [hsync]; rfl)
  obtain ⟨post, rfl⟩ := hpre
  have hstats : Request.action .stats ∉ pre := fun hmem =>
    h.stats (by simp [hsync]) (by simp [htaken, hmem])
  have hlt := (hn pre (s.core.rx ++ post) hstats).2 (by simp [BatchCore.accepted, htaken])
  refine h.calls_eq_nil ?_
  have hcmd : Request.cmd? (.action .sync : Request M) = none := rfl
  rw [htaken, List.filterMap_append, List.filterMap_cons_none hcmd, List.filterMap_nil,
    List.append_nil]
  refine batches_eq_nil (fun pre' post' hp => ?_) hlt
  subst hp
  exact (hn pre' _ fun hmem => hstats (by simp [hmem])).1
    (by simp [BatchCore.accepted, htaken]; rfl)

section Unstarted

/-- The loop is at its queue, and none of its tasks has been polled. -/
structure Unstarted (s : SynchronizedBatched M R E) : Prop where
  pc : s.pc = .recv
  lock : s.lock = []
  spawned : ∀ t ∈ s.core.tasks, t.stage = .spawned

theorem reachable_queue (hcfg : cfg.Starts) (items : List (Request M)) :
    (withPanics (batchSynchronizedPoller M R E cfg) panic).Reachable
      ⟨{ BatchCore.start with rx := items }, .recv, []⟩ := by
  induction items using List.reverseRecOn with
  | nil =>
    have hstart : (start cfg : SynchronizedBatched M R E) = ⟨.start, .recv, []⟩ := by
      simp [start, hcfg]
    exact hstart ▸ .start
  | append_singleton items item ih => exact ih.step (l := .push item) rfl

variable (cfg) in
theorem unstarted_body (h : Unstarted s) (item : Request M) (hsync : item ≠ .action .sync)
    (hstats : item ≠ .action .stats) : Unstarted (body cfg s item) := by
  have hspawn : ∀ (c : BatchCore M R E) (batch : Batch M), c.tasks = s.core.tasks →
      ∀ t ∈ (c.spawn batch).tasks, t.stage = .spawned := by
    intro c batch hc
    simp only [BatchCore.spawn, hc, List.forall_mem_append, List.forall_mem_singleton]
    exact ⟨h.spawned, trivial⟩
  rcases item with a | ⟨mid, msg, req⟩
  · rcases a with id | _ | _ | _ | _
    · exact ⟨h.pc, h.lock, h.spawned⟩
    · refine ⟨h.pc, h.lock, ?_⟩
      simp only [body]
      split_ifs
      · exact h.spawned
      · exact hspawn s.core.drain s.core.buffered rfl
    · exact absurd rfl hsync
    · exact ⟨h.pc, h.lock, h.spawned⟩
    · exact absurd rfl hstats
  · refine ⟨h.pc, h.lock, ?_⟩
    simp only [body]
    split_ifs
    · exact hspawn (s.core.bufferPush mid msg req).drain _ rfl
    · exact h.spawned

/-- The step of the loop that takes an item. -/
theorem Unstarted.step_recv (h : Unstarted s) {item : Request M} {rx : List (Request M)}
    (hrx : s.core.rx = item :: rx) :
    (withPanics (batchSynchronizedPoller M R E cfg) panic).step s (.run (.inl .recv))
      = some (body cfg { s with core.rx := rx, core.taken := s.core.taken ++ [item] } item) := by
  show s.run cfg .recv = _
  simp [run, h.pc, BatchCore.recv, hrx]

variable (cfg) in
theorem rx_body (s : SynchronizedBatched M R E) (item : Request M) :
    (body cfg s item).core.rx = s.core.rx := by
  have := (accepted_body cfg s item).1
  simpa [BatchCore.accepted, taken_body] using this

/-- The mutex is free for a sync while no task has asked for it. -/
theorem exists_synced
    (hr : (withPanics (batchSynchronizedPoller M R E cfg) panic).Reachable s)
    (hpc : s.pc = .syncAsk) (hlock : s.lock = [])
    (hspawned : ∀ t ∈ s.core.tasks, t.stage = .spawned) :
    ∃ s', (withPanics (batchSynchronizedPoller M R E cfg) panic).Reachable s' ∧ Unstarted s'
      ∧ s'.core.rx = s.core.rx ∧ s'.core.taken = s.core.taken
      ∧ ∃ t, (withPanics (batchSynchronizedPoller M R E cfg) panic).Reachable t
        ∧ t.core = s.core ∧ t.pc = .syncing := by
  have hask : (withPanics (batchSynchronizedPoller M R E cfg) panic).step s (.run (.inl .askSync))
      = some ⟨s.core, .syncWait, [.sync]⟩ := by
    show s.run cfg .askSync = _
    simp [run, hpc, hlock]
  have hstart : (withPanics (batchSynchronizedPoller M R E cfg) panic).Reachable
      ⟨s.core, .syncing, [.sync]⟩ := (hr.step hask).step (l := .run (.inl .startSync)) rfl
  exact ⟨_, hstart.step (l := .run (.inl (.syncDone (.ok ())))) rfl,
    ⟨rfl, rfl, hspawned⟩, rfl, rfl, _, hstart, rfl, rfl⟩

theorem exists_taken (pre : List (Request M)) {rest : List (Request M)}
    (hr : (withPanics (batchSynchronizedPoller M R E cfg) panic).Reachable s) (hu : Unstarted s)
    (hrx : s.core.rx = pre ++ rest) (hstats : Request.action .stats ∉ pre) :
    ∃ s', (withPanics (batchSynchronizedPoller M R E cfg) panic).Reachable s' ∧ Unstarted s'
      ∧ s'.core.rx = rest ∧ s'.core.taken = s.core.taken ++ pre := by
  induction pre generalizing s with
  | nil => exact ⟨s, hr, hu, hrx, by simp⟩
  | cons item pre ih =>
    simp only [List.mem_cons, not_or] at hstats
    have hr' := hr.step (hu.step_recv hrx)
    have hrx' := rx_body cfg
      { s with core.rx := pre ++ rest, core.taken := s.core.taken ++ [item] } item
    have htaken' := taken_body cfg
      { s with core.rx := pre ++ rest, core.taken := s.core.taken ++ [item] } item
    have hnext : ∃ s', (withPanics (batchSynchronizedPoller M R E cfg) panic).Reachable s'
        ∧ Unstarted s' ∧ s'.core.rx = pre ++ rest ∧ s'.core.taken = s.core.taken ++ [item] := by
      by_cases hsync : item = .action .sync
      · subst hsync
        obtain ⟨s', hs', hu', hrx', htaken', -⟩ := exists_synced hr' rfl hu.lock hu.spawned
        exact ⟨s', hs', hu', hrx', htaken'⟩
      · have hu' : Unstarted { s with
            core.rx := pre ++ rest, core.taken := s.core.taken ++ [item] } :=
          ⟨hu.pc, hu.lock, hu.spawned⟩
        exact ⟨_, hr', unstarted_body cfg hu' item hsync (Ne.symm hstats.1), hrx', htaken'⟩
    obtain ⟨s₁, hr₁, hu₁, hrx₁, htaken₁⟩ := hnext
    obtain ⟨s', hs', hu', hrx', htaken'⟩ := ih hr₁ hu₁ hrx₁ hstats.2
    exact ⟨s', hs', hu', hrx', by simp [htaken', htaken₁]⟩

variable (cfg R E) in
/-- The items up to a `Stats` can be taken with no task polled. -/
theorem exists_unstarted (hcfg : cfg.Starts) (pre rest : List (Request M))
    (hstats : Request.action .stats ∉ pre) :
    ∃ s : SynchronizedBatched M R E,
      (withPanics (batchSynchronizedPoller M R E cfg) panic).Reachable s ∧ Unstarted s
        ∧ s.core.rx = rest ∧ s.core.taken = pre :=
  exists_taken pre (reachable_queue hcfg (pre ++ rest)) ⟨rfl, rfl, List.forall_mem_nil _⟩ rfl hstats

/-- A task not polled yet is no call that is over. -/
theorem tasks_eq_nil (hspawned : ∀ t ∈ s.core.tasks, t.stage = .spawned)
    (hover : ∀ c ∈ callView.calls s, c.phase = .over) : s.core.tasks = [] := by
  rw [List.eq_nil_iff_forall_not_mem]
  intro t ht
  have := hover t.call (List.mem_map_of_mem ht)
  simp [BatchTask.call, hspawned t ht, TaskStage.phase] at this

end Unstarted

/-- `Flushed` and the handler's `sync` come only once the calls before them are over, in every run
on the items. -/
def Waits (cfg : SynchronizedBatchedConfig) (R E : Type) (items : List (Request M)) : Prop :=
  ∀ s : SynchronizedBatched M R E,
    (withPanics (batchSynchronizedPoller M R E cfg) panic).Reachable s →
    s.core.accepted <+: items →
    callView.Barrier (withPanics (batchSynchronizedPoller M R E cfg) panic) s
      ∧ (callView.syncing s = true → ∀ c ∈ callView.calls s, c.phase = .over)

theorem Waits.flush (hcfg : cfg.Starts) {pre post : List (Request M)}
    (h : Waits cfg R E (pre ++ .action .flush :: post))
    (hstats : Request.action .stats ∉ pre) : requests pre = 0 := by
  obtain ⟨s, hr, hu, hrx, htaken⟩ :=
    exists_unstarted R E cfg hcfg pre (.action .flush :: post) hstats
  have hu' : Unstarted { s with
      core.rx := post, core.taken := s.core.taken ++ [.action .flush] } :=
    ⟨hu.pc, hu.lock, hu.spawned⟩
  obtain ⟨items, hitems, hcalls, hover⟩ :=
    (h s hr (by simp [BatchCore.accepted, hrx, htaken])).1 _ _ (hu.step_recv hrx)
      (by simp only [body, callView]; split_ifs <;> rfl)
  have hspawned := (unstarted_body cfg hu' (.action .flush) (by simp) (by simp)).spawned
  have hnil := tasks_eq_nil hspawned hover
  have hitems' : items = pre := by
    have := (taken_body cfg _ _).symm.trans hitems
    simpa [htaken] using this.symm
  rw [requests_calls, ← hitems', ← hcalls]
  simp only [callView, hnil]
  rfl

theorem Waits.sync (hcfg : cfg.Starts) {pre post : List (Request M)}
    (h : Waits cfg R E (pre ++ .action .sync :: post))
    (hstats : Request.action .stats ∉ pre) : requests pre < max 1 cfg.batchSize := by
  obtain ⟨s, hr, hu, hrx, htaken⟩ :=
    exists_unstarted R E cfg hcfg pre (.action .sync :: post) hstats
  obtain ⟨-, -, -, -, -, t, ht, hcore, hpc⟩ :=
    exists_synced (hr.step (hu.step_recv hrx)) rfl hu.lock hu.spawned
  have htaken' : t.core.taken = pre ++ [.action .sync] := by rw [hcore, ← htaken]; rfl
  have hover := (h t ht (by simp [BatchCore.accepted, hcore, body, htaken])).2
    (by simp [callView, hpc])
  have hnil := tasks_eq_nil (by rw [hcore]; exact hu.spawned) hover
  have hbatches := (placed_of_reachable ht).splits.1
  rw [BatchCore.batches, hnil, List.map_nil, eq_comm, List.map_eq_nil_iff, htaken'] at hbatches
  have hlt := requests_lt hbatches
  have hzero : requests [(.action .sync : Request M)] = 0 := rfl
  rwa [requests_append, hzero, Nat.add_zero] at hlt

/-- A poller that does not get to its loop sends no `Flushed` and calls no `sync`. -/
theorem waits_of_not_starts (hcfg : ¬ cfg.Starts) (items : List (Request M)) :
    Waits cfg R E items := by
  intro s hr _
  have hdead : Dead s := Lts.invariant (dead_start hcfg) (fun _ _ _ => dead_withPanics) hr
  refine ⟨fun l s' hs hstx => ?_, fun hsync => ?_⟩
  · have hstx' : s'.core.stx = [] := by rw [(dead_withPanics hdead hs).core]; rfl
    exact absurd (hstx'.symm.trans hstx) (by simp)
  · simp [callView, hdead.pc] at hsync

end SynchronizedBatched

/-- A synchronized batched poller waits on the items, whatever the scheduling, exactly when nothing
is pending at their actions, or when it does not get to its loop. -/
theorem synchronized_batched_waits_iff (M R E : Type) (cfg : SynchronizedBatchedConfig)
    (items : List (Request M)) :
    SynchronizedBatched.Waits cfg R E items
      ↔ ¬ cfg.Starts ∨ NothingPending cfg.batchSize items := by
  constructor
  · intro h
    by_cases hcfg : cfg.Starts
    · refine .inr fun pre post hstats => ⟨?_, ?_⟩
      · rintro rfl
        exact h.flush hcfg hstats
      · rintro rfl
        exact h.sync hcfg hstats
    · exact .inl hcfg
  · rintro (hcfg | h)
    · exact SynchronizedBatched.waits_of_not_starts hcfg items
    · intro s hr hpre
      have hs := SynchronizedBatched.placed_of_reachable hr
      refine ⟨hs.barrier h hpre, fun hsync => ?_⟩
      rw [hs.sync_settled h hpre (by simpa [SynchronizedBatched.callView] using hsync)]
      exact List.forall_mem_nil _

/-- A `Flush` behind one message of a batch of two, and a `Sync` behind a batch of one. -/
theorem unwaited_batches :
    ¬ SynchronizedBatched.Waits ⟨2, 0⟩ Unit Unit [.request 1 () false, .action .flush]
    ∧ ¬ SynchronizedBatched.Waits ⟨1, 0⟩ Unit Unit [.request 1 () false, .action .sync] := by
  constructor
  · intro h
    have hr : (withPanics (batchSynchronizedPoller Unit Unit Unit ⟨2, 0⟩)
        SynchronizedBatched.panic).run
        [.push (.request 1 () false), .push (.action .flush), .run (.inl .recv)]
        = some ⟨⟨[.action .flush], false, [(1, false)], [()], [], [], [.request 1 () false], []⟩,
          .recv, []⟩ := rfl
    obtain ⟨items, -, -, hover⟩ := (h _ (Lts.reachable_of_run hr) List.prefix_rfl).1
      (.run (.inl .recv)) _ rfl rfl
    have := hover ⟨.waiting, [(1, ())]⟩ (List.mem_singleton.2 rfl)
    cases this
  · intro h
    have hr : (withPanics (batchSynchronizedPoller Unit Unit Unit ⟨1, 0⟩)
        SynchronizedBatched.panic).run
        [.push (.request 1 () false), .push (.action .sync), .run (.inl .recv), .run (.inl .recv),
          .run (.inl .askSync), .run (.inl .startSync)]
        = some ⟨⟨[], false, [], [], [⟨⟨[(1, false)], [()]⟩, .spawned⟩], [],
          [.request 1 () false, .action .sync], []⟩, .syncing, [.sync]⟩ := rfl
    have := (h _ (Lts.reachable_of_run hr) List.prefix_rfl).2 rfl ⟨.waiting, [(1, ())]⟩
      (List.mem_singleton.2 rfl)
    cases this

end MessageBus
