import MessageBus.FlushAll
import Mathlib.Data.List.Infix
import Mathlib.Logic.Function.Basic

/-!
# `flush_all` reaches equilibrium when forwarding chains are short

A flush empties the receiver's own queue and only appends elsewhere, where it sets the flags. So
what a pass leaves queued was forwarded once more than what it found: after `k` passes every queued
message has a path of more than `k` receivers. A pass after the first that flushes anything handles
such a message, so chains of at most 31 receivers leave the 32nd pass nothing to flush.
-/

namespace MessageBus.Inboxes

variable {σ ι M : Type*} [DecidableEq ι]

section Fed

variable {P : M → Prop} {b b' b'' : Inboxes σ ι M} {r : ι}

/-- From `b` to `b'` the queue of `r` only got messages with `P` behind, and its flag with them. -/
def Fed (P : M → Prop) (b b' : Inboxes σ ι M) (r : ι) : Prop :=
  ∃ l, b'.queue r = b.queue r ++ l ∧ (∀ m ∈ l, P m)
    ∧ b'.needFlush r = (b.needFlush r || !l.isEmpty)

omit [DecidableEq ι] in
theorem Fed.of_eq (hq : b'.queue r = b.queue r) (hn : b'.needFlush r = b.needFlush r) :
    Fed P b b' r := ⟨[], by simp [hq], by simp, by simp [hn]⟩

omit [DecidableEq ι] in
theorem Fed.trans : Fed P b b' r → Fed P b' b'' r → Fed P b b'' r := by
  rintro ⟨l, hq, hP, hn⟩ ⟨l', hq', hP', hn'⟩
  refine ⟨l ++ l', by rw [hq', hq, List.append_assoc], fun m hm => ?_, ?_⟩
  · rcases List.mem_append.1 hm with hm | hm
    · exact hP m hm
    · exact hP' m hm
  · rw [hn', hn, Bool.or_assoc]
    cases l <;> simp

theorem fed_send {m : M} {dst : ι} (hP : r = dst → P m) : Fed P b (b.send dst m) r := by
  by_cases hr : r = dst
  · subst hr
    exact ⟨[m], by simp [send], by simpa using hP rfl, by simp [send]⟩
  · exact .of_eq (by simp [send, hr]) (by simp [send, hr])

theorem fed_sendAll {p : ι → Prop} : ∀ {sent : List ({ dst : ι // p dst } × M)}
    {b : Inboxes σ ι M}, (∀ s ∈ sent, r = s.1 → P s.2) → Fed P b (b.sendAll sent) r
  | [], _, _ => .of_eq rfl rfl
  | s :: sent, b, hP => by
    have hs : Fed P b (b.send s.1 s.2) r := fed_send (hP s List.mem_cons_self)
    exact hs.trans (fed_sendAll fun t ht => hP t (List.mem_cons_of_mem s ht))

end Fed

section Flush

variable {h : Handlers σ ι M} {P : ι → M → Prop} {b : Inboxes σ ι M} {r : ι}

theorem sendAll_shared {p : ι → Prop} : ∀ (sent : List ({ dst : ι // p dst } × M))
    (b : Inboxes σ ι M), (b.sendAll sent).shared = b.shared
  | [], _ => rfl
  | s :: sent, b => sendAll_shared sent (b.send s.1 s.2)

theorem handle_shared (m : M) : (handle h r b m).shared = (h b.shared r m).1 :=
  sendAll_shared _ _

/-- A handler sends nothing to its own receiver. -/
theorem handle_self (m : M) : Fed (fun _ => False) b (handle h r b m) r := by
  have hfed : Fed (fun _ => False) { b with shared := (h b.shared r m).1 } (handle h r b m) r :=
    fed_sendAll fun s _ hr => s.1.2 hr.symm
  exact hfed

theorem handle_fed {m : M} {q : ι} (hP : ∀ s ∈ (h b.shared r m).2, P s.1 s.2) :
    Fed (P q) b (handle h r b m) q := by
  have hfed : Fed (P q) { b with shared := (h b.shared r m).1 } (handle h r b m) q :=
    fed_sendAll fun s hs hq => hq ▸ hP s hs
  exact hfed

theorem handles_fed {q : ι} : ∀ {msgs : List M} {b : Inboxes σ ι M},
    (∀ m ∈ msgs, ∀ e, ∀ s ∈ (h e r m).2, P s.1 s.2) → Fed (P q) b (msgs.foldl (handle h r) b) q
  | [], _, _ => .of_eq rfl rfl
  | m :: msgs, b, hP => by
    have hm : Fed (P q) b (handle h r b m) q := handle_fed (hP m List.mem_cons_self _)
    exact hm.trans (handles_fed fun m' hm' => hP m' (List.mem_cons_of_mem m hm'))

theorem handles_self_queue : ∀ (msgs : List M) (b : Inboxes σ ι M),
    (msgs.foldl (handle h r) b).queue r = b.queue r
  | [], _ => rfl
  | m :: msgs, b => by
    obtain ⟨l, hq, hl, -⟩ := handle_self (h := h) (b := b) (r := r) m
    obtain rfl : l = [] := List.eq_nil_iff_forall_not_mem.2 fun m hm => hl m hm
    rw [List.foldl_cons, handles_self_queue msgs, hq, List.append_nil]

theorem flush_self : (flush h b r).queue r = [] ∧ (flush h b r).needFlush r = false := by
  refine ⟨?_, by simp [flush]⟩
  unfold flush
  exact (handles_self_queue _ _).trans (by simp)

/-- What the flush of one receiver does at another. -/
theorem flush_fed {q : ι} (hq : q ≠ r) (hP : ∀ m ∈ b.queue r, ∀ e, ∀ s ∈ (h e r m).2, P s.1 s.2) :
    Fed (P q) b (flush h b r) q := by
  obtain ⟨l, hqueue, hl, hneed⟩ :=
    handles_fed (q := q) (b := { b with queue := Function.update b.queue r [] }) hP
  refine ⟨l, ?_, hl, ?_⟩
  · unfold flush
    simpa [hq] using hqueue
  · unfold flush
    simpa [hq] using hneed

/-- What is queued after a flush was queued elsewhere, or is sent in it. -/
theorem flush_forall {Q : ι → M → Prop} {q : ι} (hq : q ≠ r → ∀ m ∈ b.queue q, Q q m)
    (hsent : ∀ m ∈ b.queue r, ∀ e, ∀ s ∈ (h e r m).2, Q s.1 s.2) :
    ∀ m ∈ (flush h b r).queue q, Q q m := by
  by_cases hqr : q = r
  · rw [hqr, flush_self.1]
    exact List.forall_mem_nil _
  · obtain ⟨l, hqueue, hl, -⟩ := flush_fed hqr hsent
    rw [hqueue]
    exact List.forall_mem_append.2 ⟨hq hqr, hl⟩

end Flush

section Trace

variable {h : Handlers σ ι M} {b : Inboxes (σ × List (List ι)) ι (Traced ι M)} {r : ι}

omit [DecidableEq ι] in
theorem traced_path {e : σ × List (List ι)} {m : Traced ι M}
    {s : { dst : ι // dst ≠ r } × Traced ι M} (hs : s ∈ (h.traced e r m).2) :
    s.2.path = m.path ++ [s.1.1] := by
  obtain ⟨out, -, rfl⟩ := List.mem_map.1 hs
  rfl

theorem handles_chains : ∀ (msgs : List (Traced ι M))
    (b : Inboxes (σ × List (List ι)) ι (Traced ι M)),
    (msgs.foldl (handle h.traced r) b).shared.2 = b.shared.2 ++ msgs.map Traced.path
  | [], b => by simp
  | m :: msgs, b => by
    rw [List.foldl_cons, handles_chains msgs, handle_shared]
    simp [Handlers.traced]

/-- A flush notes the path of every message that was queued. -/
theorem flush_chains :
    (flush h.traced b r).shared.2 = b.shared.2 ++ (b.queue r).map Traced.path :=
  handles_chains _ _

theorem works_chains {b b' : Inboxes (σ × List (List ι)) ι (Traced ι M)}
    (hw : Relation.ReflTransGen (Sweep.Works needFlush (flush h.traced)) b b') :
    b.shared.2 ⊆ b'.shared.2 := by
  induction hw with
  | refl => exact fun c hc => hc
  | tail _ hstep ih =>
    obtain ⟨r, -, rfl⟩ := hstep
    rw [flush_chains]
    exact fun c hc => List.mem_append_left _ (ih hc)

/-! Without the paths, a traced run is the run itself. -/

def untraced (b : Inboxes (σ × List (List ι)) ι (Traced ι M)) : Inboxes σ ι M :=
  ⟨b.shared.1, fun r => (b.queue r).map Traced.msg, b.needFlush⟩

theorem untraced_send (dst : ι) (m : Traced ι M) :
    (b.send dst m).untraced = b.untraced.send dst m.msg := by
  simp only [untraced, send, mk.injEq, true_and, and_true]
  funext q
  by_cases hq : q = dst
  · subst hq
    simp
  · simp [hq]

theorem untraced_sendAll {p : ι → Prop} : ∀ (sent : List ({ dst : ι // p dst } × M))
    (path : ι → List ι) (b : Inboxes (σ × List (List ι)) ι (Traced ι M)),
    (b.sendAll (sent.map fun out => (out.1, ⟨out.2, path out.1.1⟩))).untraced
      = b.untraced.sendAll sent
  | [], _, _ => rfl
  | s :: sent, path, _ =>
    (untraced_sendAll sent path _).trans (congrArg (sendAll · sent) (untraced_send s.1.1 _))

theorem untraced_handle (b : Inboxes (σ × List (List ι)) ι (Traced ι M)) (m : Traced ι M) :
    (handle h.traced r b m).untraced = handle h r b.untraced m.msg :=
  untraced_sendAll _ (fun q => m.path ++ [q]) _

theorem untraced_handles : ∀ (msgs : List (Traced ι M))
    (b : Inboxes (σ × List (List ι)) ι (Traced ι M)),
    (msgs.foldl (handle h.traced r) b).untraced
      = (msgs.map Traced.msg).foldl (handle h r) b.untraced
  | [], _ => rfl
  | m :: msgs, b => by
    rw [List.foldl_cons, List.map_cons, List.foldl_cons, untraced_handles msgs, untraced_handle]

theorem untraced_flush (b : Inboxes (σ × List (List ι)) ι (Traced ι M)) (r : ι) :
    flush h b.untraced r = (flush h.traced b r).untraced := by
  have hempty : (untraced { b with queue := Function.update b.queue r [] })
      = { b.untraced with queue := Function.update b.untraced.queue r [] } := by
    simp only [untraced, mk.injEq, true_and, and_true]
    funext q
    by_cases hq : q = r
    · subst hq
      simp
    · simp [hq]
  have hhandled := untraced_handles (h := h) (r := r) (b.queue r)
    { b with queue := Function.update b.queue r [] }
  rw [hempty] at hhandled
  unfold flush
  rw [show b.untraced.queue r = (b.queue r).map Traced.msg from rfl, ← hhandled]
  rfl

omit [DecidableEq ι] in
theorem untraced_traced (b : Inboxes σ ι M) : b.traced.untraced = b := by
  simp [untraced, traced, Function.comp_def]

/-- A traced `flush_all` and the plain one run alike. -/
theorem flushAll_traced (order : List ι) (b : Inboxes σ ι M) :
    flushAll h order b = ⟨(flushAll h.traced order b.traced).state.untraced,
      (flushAll h.traced order b.traced).breaked, (flushAll h.traced order b.traced).iters⟩ := by
  have hneed : ∀ (b : Inboxes (σ × List (List ι)) ι (Traced ι M)) r,
      b.untraced.needFlush r = b.needFlush r := fun _ _ => rfl
  have hrun := Sweep.run_map untraced hneed (untraced_flush (h := h)) order 32 0 b.traced
  rw [untraced_traced] at hrun
  exact hrun

end Trace

section Depth

variable {h : Handlers σ ι M} {order rs : List ι} {r : ι} {k : ℕ}
  {b : Inboxes (σ × List (List ι)) ι (Traced ι M)}

/-- After `k` passes: flags stand where messages wait, after the first pass nowhere else, and what
waits was forwarded through more than `k` receivers. -/
structure Level (k : ℕ) (b : Inboxes (σ × List (List ι)) ι (Traced ι M)) : Prop where
  armed : ∀ r, b.queue r ≠ [] → b.needFlush r = true
  deep : ∀ r, ∀ m ∈ b.queue r, k < m.path.length
  meant : 0 < k → ∀ r, b.needFlush r = true → b.queue r ≠ []

/-- Within the pass that follows, the receivers of `todo` not yet visited. -/
structure Midway (k : ℕ) (todo : List ι) (b : Inboxes (σ × List (List ι)) ι (Traced ι M)) :
    Prop where
  armed : ∀ r, b.queue r ≠ [] → b.needFlush r = true
  deep : ∀ r, ∀ m ∈ b.queue r, k < m.path.length
  deeper : ∀ r, r ∉ todo → ∀ m ∈ b.queue r, k + 1 < m.path.length
  meant : ∀ r, r ∉ todo → b.needFlush r = true → b.queue r ≠ []

omit [DecidableEq ι] in
theorem Level.midway (hl : Level k b) (hall : ∀ r, r ∈ order) : Midway k order b :=
  ⟨hl.armed, hl.deep, fun r hr => absurd (hall r) hr, fun r hr => absurd (hall r) hr⟩

omit [DecidableEq ι] in
theorem Midway.level (hm : Midway k [] b) : Level (k + 1) b :=
  ⟨hm.armed, fun r => hm.deeper r List.not_mem_nil, fun _ r => hm.meant r List.not_mem_nil⟩

theorem Midway.skip (hm : Midway k (r :: rs) b) (hr : b.needFlush r = false) : Midway k rs b := by
  have hempty : b.queue r = [] := by
    by_contra hne
    rw [hm.armed r hne] at hr
    cases hr
  refine ⟨hm.armed, hm.deep, fun q hq => ?_, fun q hq => ?_⟩
  · by_cases hqr : q = r
    · rw [hqr, hempty]
      simp
    · exact hm.deeper q (by simp [hqr, hq])
  · by_cases hqr : q = r
    · rw [hqr, hr]
      simp
    · exact hm.meant q (by simp [hqr, hq])

theorem Midway.flush (hm : Midway k (r :: rs) b) : Midway k rs (b.flush h.traced r) := by
  have hsent : ∀ m ∈ b.queue r, ∀ e, ∀ s ∈ (h.traced e r m).2, k + 1 < s.2.path.length := by
    intro m hmem e s hs
    have := hm.deep r m hmem
    rw [traced_path hs, List.length_append, List.length_singleton]
    omega
  have hfed : ∀ q, q ≠ r → Fed (fun _ => True) b (b.flush h.traced r) q := fun q hq =>
    flush_fed (P := fun _ _ => True) hq fun _ _ _ _ _ => trivial
  obtain ⟨hqueue, hneed⟩ := flush_self (h := h.traced) (b := b) (r := r)
  refine ⟨fun q hne => ?_, fun q => ?_, fun q hq => ?_, fun q hq hflag => ?_⟩
  · by_cases hqr : q = r
    · exact absurd (hqr ▸ hqueue) hne
    · obtain ⟨l, hq', -, hn'⟩ := hfed q hqr
      rw [hq'] at hne
      rw [hn', Bool.or_eq_true]
      cases l with
      | nil => exact .inl (hm.armed q (by simpa using hne))
      | cons m l => exact .inr rfl
  · exact flush_forall (Q := fun (_ : ι) (m : Traced ι M) => k < m.path.length)
      (fun _ => hm.deep q) fun m hmem e s hs => Nat.lt_of_succ_lt (hsent m hmem e s hs)
  · exact flush_forall (Q := fun (_ : ι) (m : Traced ι M) => k + 1 < m.path.length)
      (fun hqr => hm.deeper q (by simp [hqr, hq])) hsent
  · by_cases hqr : q = r
    · rw [hqr, hneed] at hflag
      cases hflag
    · obtain ⟨l, hq', -, hn'⟩ := hfed q hqr
      rw [hq']
      rw [hn', Bool.or_eq_true] at hflag
      rcases hflag with hflag | hflag
      · simp [hm.meant q (by simp [hqr, hq]) hflag]
      · cases l with
        | nil => cases hflag
        | cons m l => simp

/-- A pass takes every waiting message one receiver further. -/
theorem Level.pass (hl : Level k b) (hall : ∀ r, r ∈ order) :
    Level (k + 1) (Sweep.pass needFlush (flush h.traced) order b).1 :=
  (Sweep.pass_induct (I := Midway k) (fun _ _ _ hm hr => hm.skip hr) (fun _ _ _ hm _ => hm.flush)
    (hl.midway hall)).level

/-- A pass after the first that flushes anything handles a message from beyond `k` receivers. -/
theorem Level.pass_chain (hl : Level k b) (hk : 0 < k)
    (hp : (Sweep.pass needFlush (flush h.traced) order b).2 = true) :
    ∃ c ∈ (Sweep.pass needFlush (flush h.traced) order b).1.shared.2, k < c.length := by
  obtain ⟨r, -, hr, hworks⟩ := Sweep.pass_first hp
  obtain ⟨m, hm⟩ := List.exists_mem_of_ne_nil _ (hl.meant hk r hr)
  refine ⟨m.path, works_chains hworks ?_, hl.deep r m hm⟩
  rw [flush_chains]
  exact List.mem_append_right _ (List.mem_map_of_mem hm)

/-- Chains shorter than the fuse let the run end before it, by a pass that flushes nothing. -/
theorem run_settled {n : ℕ} (hn : 1 < n) (hall : ∀ r, r ∈ order) : ∀ {fuse k iters : ℕ}
    {b : Inboxes (σ × List (List ι)) ι (Traced ι M)}, Level k b → k < n → fuse + k = n →
    (∀ c ∈ (Sweep.run needFlush (flush h.traced) order fuse iters b).state.shared.2,
      c.length < n) →
    (Sweep.run needFlush (flush h.traced) order fuse iters b).breaked = true ∧
      ∀ r, (Sweep.run needFlush (flush h.traced) order fuse iters b).state.queue r = [] ∧
        (Sweep.run needFlush (flush h.traced) order fuse iters b).state.needFlush r = false
  | 0, k, _, _, _, hk, hfuse, _ => by omega
  | fuse + 1, k, iters, b, hl, hk, hfuse, hchains => by
    unfold Sweep.run at hchains ⊢
    cases hp : (Sweep.pass needFlush (flush h.traced) order b).2 with
    | false =>
      obtain ⟨hsame, hquiet⟩ := Sweep.pass_quiet hp
      simp only [Bool.false_eq_true, if_false, hsame, true_and]
      refine fun r => ⟨?_, hquiet r (hall r)⟩
      by_contra hne
      exact Bool.false_ne_true ((hquiet r (hall r)).symm.trans (hl.armed r hne))
    | true =>
      simp only [hp, if_true] at hchains ⊢
      have hnext : k + 1 < n := by
        rcases Nat.eq_zero_or_pos k with rfl | hpos
        · exact hn
        · obtain ⟨c, hc, hlen⟩ := hl.pass_chain hpos hp
          have := hchains c (works_chains (Sweep.run_works order fuse _ _) hc)
          omega
      exact run_settled hn hall (hl.pass hall) hnext (by omega) hchains

end Depth

section Equilibrium

variable (h : Handlers σ ι M) (order : List ι) (hall : ∀ r, r ∈ order) (b : Inboxes σ ι M)
  (harmed : ∀ r, b.queue r ≠ [] → b.needFlush r = true)

omit [DecidableEq ι] in
/-- The messages queued at the start have been forwarded to no one. -/
theorem level_traced {b : Inboxes σ ι M} (harmed : ∀ r, b.queue r ≠ [] → b.needFlush r = true) :
    Level 0 b.traced := by
  refine ⟨fun r hr => harmed r fun hnil => hr (by simp [traced, hnil]), fun r m hm => ?_,
    fun hk => absurd hk (Nat.lt_irrefl 0)⟩
  obtain ⟨msg, -, rfl⟩ := List.mem_map.1 hm
  exact Nat.zero_lt_one

include hall harmed

theorem flushAll_settles (hchains : ∀ c ∈ chains h order b, c.length < 32) :
    (flushAll h order b).breaked = true ∧
      ∀ r, (flushAll h order b).state.queue r = [] ∧
        (flushAll h order b).state.needFlush r = false := by
  obtain ⟨hbreak, hquiet⟩ := run_settled (n := 32) (by omega) hall (level_traced harmed)
    (by omega) rfl hchains
  rw [flushAll_traced]
  refine ⟨hbreak, fun r => ⟨?_, (hquiet r).2⟩⟩
  exact List.map_eq_nil_iff.2 (hquiet r).1

/-- Whatever the handlers do and whichever way the receivers are iterated: when no forwarding chain
visits more than 31 receivers, `flush_all` ends by a pass that flushes nothing, with nothing queued
and no flag set. -/
theorem flushAll_equilibrium (hchains : ∀ c ∈ chains h order b, c.length ≤ 31) :
    (flushAll h order b).breaked = true ∧
      (∀ r, (flushAll h order b).state.queue r = []) ∧
      ∀ r, (flushAll h order b).state.needFlush r = false := by
  obtain ⟨hbreak, hquiet⟩ :=
    flushAll_settles h order hall b harmed fun c hc => Nat.lt_succ_of_le (hchains c hc)
  exact ⟨hbreak, fun r => (hquiet r).1, fun r => (hquiet r).2⟩

/-- A handler that passes on what the first of two receivers gets, and counts. -/
def passOn : Handlers ℕ (Fin 2) ℕ
  | handled, 0, msg => (handled + 1, [(⟨1, by decide⟩, msg)])
  | handled, 1, _ => (handled + 1, [])

def oneQueued : Inboxes ℕ (Fin 2) ℕ := ⟨0, fun r => if r = 0 then [7] else [], fun r => r = 0⟩

omit hall harmed in
/-- The second receiver is visited first, and flushed in the second pass. -/
theorem flushAll_equilibrium_against_order : (flushAll passOn [1, 0] oneQueued).breaked = true ∧
    (∀ r, (flushAll passOn [1, 0] oneQueued).state.queue r = []) ∧
    ∀ r, (flushAll passOn [1, 0] oneQueued).state.needFlush r = false :=
  flushAll_equilibrium passOn [1, 0] (by decide) oneQueued (by decide) (by decide)

end Equilibrium

section Rank

variable {h : Handlers σ ι M} {rank : ι → ℕ}
  {b : Inboxes (σ × List (List ι)) ι (Traced ι M)}

/-- Paths are no longer than the rank of their end allows. -/
structure Ranked (rank : ι → ℕ) (b : Inboxes (σ × List (List ι)) ι (Traced ι M)) : Prop where
  queued : ∀ r, ∀ m ∈ b.queue r, m.path.length ≤ rank r + 1
  handled : ∀ c ∈ b.shared.2, ∃ r, c.length ≤ rank r + 1

variable (hrank : ∀ e r m, ∀ s ∈ (h e r m).2, rank r < rank s.1)

include hrank

theorem Ranked.flush (hb : Ranked rank b) (r : ι) : Ranked rank (b.flush h.traced r) := by
  have hsent : ∀ m ∈ b.queue r, ∀ e, ∀ s ∈ (h.traced e r m).2, s.2.path.length ≤ rank s.1 + 1 := by
    intro m hm e s hs
    have hup : rank r < rank s.1 := by
      obtain ⟨out, hout, rfl⟩ := List.mem_map.1 hs
      exact hrank e.1 r m.msg out hout
    have := hb.queued r m hm
    rw [traced_path hs, List.length_append, List.length_singleton]
    omega
  refine ⟨fun q => flush_forall (Q := fun (q : ι) (m : Traced ι M) => m.path.length ≤ rank q + 1)
    (fun _ => hb.queued q) hsent, fun c hc => ?_⟩
  rw [flush_chains] at hc
  rcases List.mem_append.1 hc with hc | hc
  · exact hb.handled c hc
  · obtain ⟨m, hm, rfl⟩ := List.mem_map.1 hc
    exact ⟨r, hb.queued r m hm⟩

end Rank

end MessageBus.Inboxes
