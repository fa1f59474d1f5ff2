import MessageBus.NeedFlush
import MessageBus.Proofs.BatchSplit

/-!
# When `need_flush` is set

A poller never makes a message newly unflushed: it only takes items off the queue, and a `Flush`
empties the buffer (`FlushSafe`). So the flag can be wrong only through the event loop, where a
`Flushed` clears it although a message sent meanwhile waits.
-/

namespace MessageBus

open Batching

variable {M R E B σ ℓ : Type}

namespace BatchCore

/-- A message waits in the queue or in the buffer with no `Flush` behind it in the queue. -/
def Unflushed (c : BatchCore M R E) : Prop :=
  (∃ xs ys mid msg req, c.rx = xs ++ .request mid msg req :: ys ∧ .action .flush ∉ ys)
    ∨ (c.buffer ≠ [] ∧ .action .flush ∉ c.rx)

variable {c c' : BatchCore M R E}

theorem not_unflushed_start : ¬ (start : BatchCore M R E).Unflushed := by
  rintro (⟨xs, ys, mid, msg, req, hrx, -⟩ | ⟨hb, -⟩)
  · simp [start] at hrx
  · exact hb rfl

theorem Unflushed.of_task (h : c'.Unflushed) (hc : TaskStep c c') : c.Unflushed := by
  unfold Unflushed at h ⊢
  rwa [hc.frame.rx, hc.frame.buffer] at h

/-- A message left in the queue behind the item taken was there before. -/
theorem unflushed_of_rx {item : Request M} {rx : List (Request M)} (hrx : c.rx = item :: rx)
    (h : ∃ xs ys mid msg req, rx = xs ++ .request mid msg req :: ys ∧ .action .flush ∉ ys) :
    c.Unflushed := by
  obtain ⟨xs, ys, mid, msg, req, rfl, hys⟩ := h
  exact .inl ⟨item :: xs, ys, mid, msg, req, by rw [hrx, List.cons_append], hys⟩

theorem unflushed_of_request {mid : UInt64} {msg : M} {req : Bool} {rx : List (Request M)}
    (hrx : c.rx = .request mid msg req :: rx) (h : .action .flush ∉ rx) : c.Unflushed :=
  .inl ⟨[], rx, mid, msg, req, hrx, h⟩

theorem unflushed_of_action {a : Action} {rx : List (Request M)} (ha : a ≠ .flush)
    (hrx : c.rx = .action a :: rx) (hc' : c'.rx = rx) (hbuf : c'.buffer = c.buffer)
    (h : c'.Unflushed) : c.Unflushed := by
  rcases h with h | ⟨hb, hf⟩
  · rw [hc'] at h
    exact unflushed_of_rx hrx h
  · refine .inr ⟨hbuf ▸ hb, ?_⟩
    rw [hrx, List.mem_cons, not_or]
    exact ⟨fun h => ha (by simpa using h.symm), hc' ▸ hf⟩

/-- An action pushed behind everything makes no message unflushed. -/
theorem unflushed_of_push {a : Action}
    (h : Unflushed { c with rx := c.rx ++ [.action a] }) : c.Unflushed := by
  rcases h with ⟨xs, ys, mid, msg, req, hrx, hys⟩ | ⟨hb, hf⟩
  · rcases List.eq_nil_or_concat ys with rfl | ⟨ys, y, rfl⟩
    · have := List.append_inj_right' hrx rfl
      cases this
    · rw [List.concat_eq_append] at hrx hys
      rw [← List.cons_append, ← List.append_assoc] at hrx
      have := List.append_inj_left' hrx rfl
      exact .inl ⟨xs, ys, mid, msg, req, this, fun hmem => hys (List.mem_append_left _ hmem)⟩
  · exact .inr ⟨hb, fun hmem => hf (List.mem_append_left _ hmem)⟩

end BatchCore

/-- A poller, with the invariant it keeps, whose own steps and whose actions make no message newly
unflushed. -/
structure FlushSafe (P : Lts σ (PollerLabel M ℓ)) (core : σ → BatchCore M R E) (Inv : σ → Prop) :
    Prop where
  start : Inv P.start
  fresh : ¬ (core P.start).Unflushed
  step : ∀ s l s', Inv s → P.step s l = some s' → Inv s'
  run : ∀ s l s', Inv s → P.step s (.run l) = some s' → (core s').Unflushed → (core s).Unflushed
  action : ∀ s a s', P.step s (.push (.action a)) = some s' →
    (core s').Unflushed → (core s).Unflushed

theorem Shows.buffer_nil {b : ℕ} {batches : List (Batch M)} {buffer : Batch M}
    {taken : List (Request M)} (h : Shows b batches buffer taken)
    (hm : buffer.mids.isEmpty = true) : buffer.msgs = [] := by
  obtain ⟨-, rfl⟩ := h
  simp only [Batch.of, List.isEmpty_map, List.isEmpty_iff] at hm
  simp [Batch.of, hm]

namespace BufferUnorderedBatched

variable {cfg : BufferUnorderedBatchedConfig} {s s' : BufferUnorderedBatched M R E}

theorem unflushed_body {item : Request M} {rx : List (Request M)} (hs : Splits cfg s)
    (hpc : s.pc = .recv) (hrx : s.core.rx = item :: rx)
    (h : (body cfg { s with core.rx := rx, core.taken := s.core.taken ++ [item] }
      item).core.Unflushed) : s.core.Unflushed := by
  rcases item with a | ⟨mid, msg, req⟩
  · by_cases ha : a = .flush
    · subst ha
      simp only [body] at h
      split_ifs at h with hb
      · rcases h with h | ⟨hbuf, -⟩
        · exact BatchCore.unflushed_of_rx hrx h
        · unfold Splits shown at hs
          rw [hpc] at hs
          exact absurd (hs.buffer_nil hb) hbuf
      · rcases h with h | ⟨hbuf, -⟩
        · exact BatchCore.unflushed_of_rx hrx h
        · exact absurd rfl hbuf
    · refine BatchCore.unflushed_of_action ha hrx ?_ ?_ h <;>
        rcases a with _ | _ | _ | _ | _ <;> first | rfl | exact absurd rfl ha
  · rcases h with h | ⟨-, hf⟩
    · exact BatchCore.unflushed_of_rx hrx h
    · exact BatchCore.unflushed_of_request hrx hf

theorem flushSafe (cfg : BufferUnorderedBatchedConfig) :
    FlushSafe (bufferUnorderedBatchPoller M R E cfg) (·.core) (Splits cfg) where
  start := splits_start
  fresh := BatchCore.not_unflushed_start
  step _ _ _ := splits_step
  run s l s' hs h hu := by
    change s.step cfg (.run l) = some s' at h
    cases move h with
    | take item rx hpc hrx => exact unflushed_body hs hpc hrx hu
    | ends => exact hu
    | dispatch =>
      rcases hu with hu | ⟨hbuf, -⟩
      · exact .inl hu
      · exact absurd rfl hbuf
    | flushDispatch => exact hu
    | flushed => exact hu
    | sync => exact hu
    | synced => exact hu
    | start i c hc => exact hu.of_task (.start hc)
    | finish i resp c hc => exact hu.of_task (.finish hc)
    | send i c hc => exact hu.of_task (.send hc)
  action s a s' h hu := by
    change s.step cfg (.push (.action a)) = some s' at h
    cases move h
    exact BatchCore.unflushed_of_push hu

end BufferUnorderedBatched

namespace SynchronizedBatched

variable {cfg : SynchronizedBatchedConfig} {s s' : SynchronizedBatched M R E}

theorem unflushed_body {item : Request M} {rx : List (Request M)} (hs : Splits cfg s)
    (hrx : s.core.rx = item :: rx)
    (h : (body cfg { s with core.rx := rx, core.taken := s.core.taken ++ [item] }
      item).core.Unflushed) : s.core.Unflushed := by
  rcases item with a | ⟨mid, msg, req⟩
  · by_cases ha : a = .flush
    · subst ha
      simp only [body] at h
      split_ifs at h with hb
      · rcases h with h | ⟨hbuf, -⟩
        · exact BatchCore.unflushed_of_rx hrx h
        · exact absurd (hs.buffer_nil hb) hbuf
      · rcases h with h | ⟨hbuf, -⟩
        · exact BatchCore.unflushed_of_rx hrx h
        · exact absurd rfl hbuf
    · refine BatchCore.unflushed_of_action ha hrx ?_ ?_ h <;>
        rcases a with _ | _ | _ | _ | _ <;> first | rfl | exact absurd rfl ha
  · simp only [body] at h
    split_ifs at h
    · rcases h with h | ⟨hbuf, -⟩
      · exact BatchCore.unflushed_of_rx hrx h
      · exact absurd rfl hbuf
    · rcases h with h | ⟨-, hf⟩
      · exact BatchCore.unflushed_of_rx hrx h
      · exact BatchCore.unflushed_of_request hrx hf

theorem flushSafe (cfg : SynchronizedBatchedConfig) :
    FlushSafe (batchSynchronizedPoller M R E cfg) (·.core) (Splits cfg) where
  start := Shows.nil
  fresh := BatchCore.not_unflushed_start
  step _ _ _ := splits_step
  run s l s' hs h hu := by
    change s.step cfg (.run l) = some s' at h
    cases move h with
    | take item rx hpc hrx => exact unflushed_body hs hrx hu
    | start i c _ hc => exact hu.of_task (.start hc)
    | finish i resp c _ hc => exact hu.of_task (.finish hc)
    | send i c hc => exact hu.of_task (.send hc)
    | _ => exact hu
  action s a s' h hu := by
    change s.step cfg (.push (.action a)) = some s' at h
    cases move h
    exact BatchCore.unflushed_of_push hu

end SynchronizedBatched

section System

variable [StdSyncSendError E] (intoBoxed : R → B) {limit : UInt64} {P : Lts σ (PollerLabel M ℓ)}
  {core : σ → BatchCore M R E} {Inv : σ → Prop}

/-- The flag is set while a message waits unflushed, unless a send has still to set it. -/
def Visible (core : σ → BatchCore M R E) (s : FlushState σ R E B) : Prop :=
  s.midway = 0 → (core s.poller).Unflushed → s.wrapper.context.needFlush = true

/-- A `Flushed` is handled while a send has still to set the flag, or while no message waits
unflushed. -/
def Timely (core : σ → BatchCore M R E) (s : FlushState σ R E B) : FlushLabel M ℓ → Prop
  | .turn => (core s.poller).stx[s.heard]? = some .flushed →
      0 < s.midway ∨ ¬ (core s.poller).Unflushed
  | _ => True

structure VisibleInv (core : σ → BatchCore M R E) (Inv : σ → Prop) (s : FlushState σ R E B) :
    Prop where
  poller : Inv s.poller
  flag : (core s.poller).Unflushed → s.wrapper.context.needFlush = true ∨ 0 < s.midway

theorem needFlush_handleEvent (w : ReceiverWrapper) (chans : Channels R E B) {ev : Event R E}
    (h : ev ≠ .flushed) :
    (handleEvent intoBoxed w chans ev).wrapper.context.needFlush = w.context.needFlush := by
  cases ev with
  | flushed => exact absurd rfl h
  | response mid res =>
    simp only [handleEvent, response]
    split
    · split <;> rfl
    · rfl
  | _ => rfl

theorem visibleInv_step (hP : FlushSafe P core Inv) {s s' : FlushState σ R E B} {l : FlushLabel M ℓ}
    (h : VisibleInv core Inv s) (hs : (flushedReceiver intoBoxed limit P core).step s l = some s')
    (hC : Timely core s l) : VisibleInv core Inv s' := by
  change s.step intoBoxed P core l = some s' at hs
  cases l with
  | send mid msg req =>
    cases hs
    refine ⟨?_, fun _ => .inr (Nat.succ_pos _)⟩
    dsimp only
    rcases hp : P.step s.poller (.push (.request mid msg req)) with _ | t
    · exact h.poller
    · exact hP.step _ _ _ h.poller hp
  | mark =>
    simp only [FlushState.step] at hs
    split_ifs at hs
    cases hs
    exact ⟨h.poller, fun _ => .inl rfl⟩
  | action a =>
    obtain ⟨t, ht, rfl⟩ := Option.map_eq_some_iff.1 hs
    exact ⟨hP.step _ _ _ h.poller ht, fun hu => h.flag (hP.action _ _ _ ht hu)⟩
  | run l =>
    obtain ⟨t, ht, rfl⟩ := Option.map_eq_some_iff.1 hs
    exact ⟨hP.step _ _ _ h.poller ht, fun hu => h.flag (hP.run _ _ _ h.poller ht hu)⟩
  | turn =>
    simp only [FlushState.step] at hs
    split_ifs at hs
    obtain ⟨ev, hev, rfl⟩ := Option.map_eq_some_iff.1 hs
    refine ⟨h.poller, fun hu => ?_⟩
    by_cases hf : ev = .flushed
    · exact .inr ((hC (hf ▸ hev)).resolve_right (not_not_intro hu))
    · dsimp only
      rw [needFlush_handleEvent intoBoxed _ _ hf]
      exact h.flag hu
  | listen key w =>
    obtain ⟨waiters, -, rfl⟩ := Option.map_eq_some_iff.1 hs
    exact ⟨h.poller, h.flag⟩
  | hangUp tx =>
    cases hs
    exact ⟨h.poller, h.flag⟩

theorem timely_of_visible {s s' : FlushState σ R E B} {l : FlushLabel M ℓ}
    (hs : (flushedReceiver intoBoxed limit P core).step s l = some s') (h : Visible core s') :
    Timely core s l := by
  cases l with
  | turn =>
    intro hev
    change s.step intoBoxed P core .turn = some s' at hs
    simp only [FlushState.step, hev, Option.map_some] at hs
    split_ifs at hs
    cases hs
    by_contra hn
    rw [not_or, not_not] at hn
    have := h (by dsimp only; omega) hn.2
    cases this
  | _ => trivial

theorem FlushSafe.visible_iff (hP : FlushSafe P core Inv) (ls : List (FlushLabel M ℓ)) :
    (flushedReceiver intoBoxed limit P core).Always (Visible core) ls
      ↔ (flushedReceiver intoBoxed limit P core).Throughout (Timely core) ls :=
  Lts.always_iff_throughout (J := VisibleInv core Inv) (P := Visible core)
    ⟨hP.start, fun hu => absurd hu hP.fresh⟩
    (fun s h hm hu => (h.flag hu).resolve_right (by omega))
    (fun _ _ _ h hs hC => visibleInv_step intoBoxed hP h hs hC)
    (fun _ _ _ _ hs h => timely_of_visible intoBoxed hs h) ls

/-- For both batched pollers, the runs in which the flag never hides an unflushed message are
exactly those that handle every `Flushed` in time. -/
theorem visible_iff_timely (limit : UInt64) :
    (∀ cfg ls,
      (flushedReceiver intoBoxed limit (bufferUnorderedBatchPoller M R E cfg) (·.core)).Always
          (Visible (·.core)) ls
        ↔ (flushedReceiver intoBoxed limit (bufferUnorderedBatchPoller M R E cfg)
          (·.core)).Throughout (Timely (·.core)) ls)
    ∧ ∀ cfg ls,
      (flushedReceiver intoBoxed limit (batchSynchronizedPoller M R E cfg) (·.core)).Always
          (Visible (·.core)) ls
        ↔ (flushedReceiver intoBoxed limit (batchSynchronizedPoller M R E cfg)
          (·.core)).Throughout (Timely (·.core)) ls :=
  ⟨fun cfg ls => (BufferUnorderedBatched.flushSafe cfg).visible_iff intoBoxed ls,
    fun cfg ls => (SynchronizedBatched.flushSafe cfg).visible_iff intoBoxed ls⟩

end System

/-- A message sent between the `Flushed` and the loop's turn on it: the turn clears its flag. -/
theorem late_flushed_hides_message :
    (¬ (flushedReceiver (id : Unit → Unit) 16
        (bufferUnorderedBatchPoller Unit Unit GenericError ⟨1, 2, 0⟩) (·.core)).Always
        (Visible (·.core))
      [.action .flush, .run .recv, .run .acquire, .send 1 () false, .mark, .turn])
    ∧ ¬ (flushedReceiver (id : Unit → Unit) 16
        (batchSynchronizedPoller Unit Unit GenericError ⟨2, 0⟩) (·.core)).Always (Visible (·.core))
      [.action .flush, .run .recv, .send 1 () false, .mark, .turn] := by
  constructor
  · intro h
    have := h.last rfl rfl (.inl ⟨[], [], 1, (), false, rfl, List.not_mem_nil⟩)
    cases this
  · intro h
    have := h.last rfl rfl (.inl ⟨[], [], 1, (), false, rfl, List.not_mem_nil⟩)
    cases this

end MessageBus
