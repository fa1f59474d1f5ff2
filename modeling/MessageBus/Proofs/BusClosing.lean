import MessageBus.BusClosing
import MessageBus.Proofs.Closers
import Mathlib.Algebra.BigOperators.Fin

/-!
# A bus closes

One call of `Bus::close` at a time holds the lock, and goes through every receiver in their order;
what it waits for stays over once it is (`BusClosingInv`). Each of its steps takes from what it has
left, and a receiver's close ends because the receiver stops by itself, or by its timeout: so left
alone every caller of `Bus::close` comes back (`bus_closes`).
-/

namespace MessageBus

variable {B : Type}

/-- What makes the poller of a receiver stop by itself. -/
structure PolledReceiver.Closes (r : PolledReceiver B) where
  accepted : r.σ → List (Request r.M)
  load : r.σ → ℕ
  own : r.ℓ → Bool
  work : r.σ → ℕ
  Inv : r.σ → Prop
  closable : Closable r.poller r.view accepted load own work Inv

/-- The four kinds of local receivers, with a permit to give where they give any, and a poller that
gets to its loop. -/
inductive HandlerReceiver (B : Type) : Type 1 where
  | bufferUnordered (M R E : Type) (errors : StdSyncSendError E) (intoBoxed : R → B)
      (limit : UInt64) (cfg : BufferUnorderedConfig) (hpos : 1 ≤ cfg.maxParallel)
      (hmax : cfg.maxParallel ≤ 2305843009213693951)
  | synchronized (ι H : Type) (M R E : ι → Type) (eqDec : DecidableEq ι) (fintype : Fintype ι)
      (i : ι) (errors : StdSyncSendError (E i)) (intoBoxed : R i → B) (limit : UInt64)
      (f : SynchronizedHandler M R E H) (h₀ : H)
  | bufferUnorderedBatched (M R E : Type) (errors : StdSyncSendError E) (intoBoxed : R → B)
      (limit : UInt64) (cfg : BufferUnorderedBatchedConfig) (hpos : 1 ≤ cfg.maxParallel)
      (hcfg : cfg.Starts)
  | synchronizedBatched (M R E : Type) (errors : StdSyncSendError E) (intoBoxed : R → B)
      (limit : UInt64) (cfg : SynchronizedBatchedConfig) (hcfg : cfg.Starts)

namespace HandlerReceiver

/-- The receiver around its poller; the batched ones are not sent a `Stats`. -/
def polled : HandlerReceiver B → PolledReceiver B
  | bufferUnordered M R E errors intoBoxed limit cfg _ _ =>
    ⟨M, R, E, _, _, errors, intoBoxed, limit, bufferUnorderedPoller M R E cfg,
      BufferUnordered.view⟩
  | synchronized _ _ M R E _ _ i errors intoBoxed limit f h₀ =>
    ⟨M i, R i, E i, _, _, errors, intoBoxed, limit, synchronizedPoller f h₀ i,
      SynchronizedItem.view i⟩
  | bufferUnorderedBatched M R E errors intoBoxed limit cfg _ _ =>
    ⟨M, R, E, _, _, errors, intoBoxed, limit, (withPanics (bufferUnorderedBatchPoller M R E cfg)
      (BufferUnorderedBatched.panic cfg)).restrict PollerLabel.noStats,
      BufferUnorderedBatched.view⟩
  | synchronizedBatched M R E errors intoBoxed limit cfg _ =>
    ⟨M, R, E, _, _, errors, intoBoxed, limit, (withPanics (batchSynchronizedPoller M R E cfg)
      SynchronizedBatched.panic).restrict PollerLabel.noStats, SynchronizedBatched.view⟩

def closes : ∀ r : HandlerReceiver B, r.polled.Closes
  | bufferUnordered _ _ _ _ _ _ _ hpos hmax => ⟨_, _, _, _, _, BufferUnordered.closable hpos hmax⟩
  | synchronized _ _ _ _ _ _ _ i _ _ _ f h₀ =>
    ⟨_, _, _, _, _, SynchronizedItem.closable f h₀ i⟩
  | bufferUnorderedBatched _ _ _ _ _ _ _ hpos hcfg =>
    ⟨_, _, _, _, _, BufferUnorderedBatched.closable hpos hcfg⟩
  | synchronizedBatched _ _ _ _ _ _ _ hcfg => ⟨_, _, _, _, _, SynchronizedBatched.closable hcfg⟩

end HandlerReceiver

section Calls

variable {M R E σ ℓ : Type} [StdSyncSendError E] {intoBoxed : R → B} {P : Lts σ (PollerLabel M ℓ)}
  {V : PollerView σ R E} {s s' : ClosersState σ R E B} {l : ClosersLabel M ℓ}

/-- A call stays in its place, and as it is once it is over. -/
theorem ClosersState.call_kept (hs : s.step intoBoxed P V l = some s') {k : ℕ} {c : CloseCall}
    (hc : s.calls[k]? = some c) :
    ∃ c', s'.calls[k]? = some c' ∧ (c.stage.over = true → c' = c) := by
  have hset : ∀ {i : ℕ} {c₀ c' : CloseCall}, s.calls[i]? = some c₀ → c₀.stage.over = false →
      ∃ c'', (s.calls.set i c')[k]? = some c'' ∧ (c.stage.over = true → c'' = c) := by
    intro i c₀ c' hi hover
    by_cases hik : i = k
    · subst hik
      obtain rfl : c₀ = c := by simpa [hi] using hc
      refine ⟨c', List.getElem?_set_self (List.getElem?_eq_some_iff.1 hi).1, fun h => ?_⟩
      rw [hover] at h
      cases h
    · exact ⟨c, by rw [List.getElem?_set_ne hik, hc], fun _ => rfl⟩
  cases ClosersState.move hs with
  | start => exact ⟨c, by rw [List.getElem?_append_left (List.getElem?_eq_some_iff.1 hc).1, hc],
      fun _ => rfl⟩
  | push i n t hi => exact hset hi rfl
  | refuse i n hi => exact hset hi rfl
  | poll i n hi => exact hset hi rfl
  | resume i hi => exact hset hi rfl
  | timeout i stage n hi hw => exact hset hi (by cases stage <;> first | rfl | cases hw)
  | serve => exact ⟨c, hc, fun _ => rfl⟩
  | ring =>
    refine ⟨c.notify, by rw [List.getElem?_map, hc]; rfl, fun h => ?_⟩
    rw [CloseCall.notify, if_pos h]

def ClosersLabel.isTimeout : ClosersLabel M ℓ → Bool
  | .timeout _ => true
  | _ => false

variable (intoBoxed P) in
/-- A timeout ends a call. -/
theorem ClosersState.timeout_work (work : σ → ℕ) {i : ℕ}
    (hs : s.step intoBoxed P V (.timeout i) = some s') : s'.work V work < s.work V work := by
  cases ClosersState.move hs with
  | timeout i stage n hi hw =>
    have := Pool.sum_map_set_add (fun c : CloseCall => c.stage.work) ⟨.timedOut, n⟩ hi
    cases stage <;> simp only [CloseStage.waits, Bool.false_eq_true] at hw <;>
      simp only [ClosersState.work, ClosersState.set, CloseStage.work] at this ⊢ <;> omega

/-- Where the timeouts come too, no call is left behind even by a loop that has panicked. -/
theorem ClosersState.calls_over {own : ℓ → Bool} (hq : ∀ l : ClosersLabel M ℓ,
    (l.own own || l.isTimeout) = true → s.step intoBoxed P V l = none) :
    ∀ c ∈ s.calls, c.stage.over = true := by
  rintro ⟨stage, notified⟩ hc
  obtain ⟨i, hi⟩ := List.getElem?_of_mem hc
  cases stage with
  | created =>
    have := hq (.push i) rfl
    simp only [step, hi] at this
    split at this <;> cases this
  | pushed =>
    have := hq (.poll i) rfl
    simp [step, hi] at this
  | parked =>
    have := hq (.timeout i) rfl
    simp [step, hi] at this
  | _ => rfl

end Calls

section Bus

variable {n : ℕ} {rs : Fin n → PolledReceiver B} {s s' : BusClosing rs} {l : BusClosingLabel rs}

/-- The call of a receiver's `close` is over. -/
def CallOver (receivers : ∀ i, (rs i).State) (p : Fin n × ℕ) : Prop :=
  ∃ c, (receivers p.1).calls[p.2]? = some c ∧ c.stage.over = true

/-- A call of `Bus::close` goes through the receivers in their order, and is past those alone whose
close is over. -/
def BusCloser.Sound (receivers : ∀ i, (rs i).State) : BusCloser n → Prop
  | waiting => True
  | closing past todo => past.map Prod.fst ++ todo = List.finRange n
      ∧ ∀ p ∈ past, CallOver receivers p
  | awaiting past i call todo => past.map Prod.fst ++ i :: todo = List.finRange n
      ∧ (∀ p ∈ past, CallOver receivers p) ∧ ∃ c, (receivers i).calls[call]? = some c
  | done past => past.map Prod.fst = List.finRange n ∧ ∀ p ∈ past, CallOver receivers p

/-- What a bus and the callers of its `close` keep. -/
structure BusClosingInv (hr : ∀ i, (rs i).Closes) (s : BusClosing rs) : Prop where
  receivers : ∀ i, ClosersInv (rs i).view (hr i).accepted (hr i).Inv (s.receivers i)
  held : ∀ k, s.maintain = some k ↔ ∃ c, s.closers[k]? = some c ∧ c.holds = true
  shut : ∀ c ∈ s.closers, c ≠ .waiting → s.closed = true
  sweeps : ∀ c ∈ s.closers, c.Sound s.receivers

namespace BusClosing

/-- Everything a step can do. -/
inductive Move (s : BusClosing rs) : BusClosingLabel rs → BusClosing rs → Prop
  | call : Move s .call { s with closers := s.closers ++ [.waiting] }
  | lock (k : ℕ) : s.closers[k]? = some .waiting → s.maintain = none →
      Move s (.lock k)
        { s.setCloser k (.closing [] (List.finRange n)) with closed := true, maintain := some k }
  | done (k : ℕ) (past : List (Fin n × ℕ)) : s.closers[k]? = some (.closing past []) →
      Move s (.next k) { s.setCloser k (.done past) with maintain := none }
  | close (k : ℕ) (past : List (Fin n × ℕ)) (i : Fin n) (todo : List (Fin n)) (r : (rs i).State) :
      s.closers[k]? = some (.closing past (i :: todo)) →
      (rs i).closers.step (s.receivers i) .start = some r →
      Move s (.next k) { s.setCloser k (.awaiting past i (s.receivers i).calls.length todo) with
        receivers := Function.update s.receivers i r }
  | advance (k : ℕ) (past : List (Fin n × ℕ)) (i : Fin n) (call : ℕ) (todo : List (Fin n)) :
      s.closers[k]? = some (.awaiting past i call todo) → CallOver s.receivers (i, call) →
      Move s (.advance k) (s.setCloser k (.closing (past ++ [(i, call)]) todo))
  | receiver (i : Fin n) (l : (rs i).Label) (r : (rs i).State) :
      (rs i).closers.step (s.receivers i) l = some r →
      Move s (.receiver i l) { s with receivers := Function.update s.receivers i r }

theorem move (hs : s.step l = some s') : s.Move l s' := by
  cases l with
  | call =>
    cases hs
    exact .call
  | lock k =>
    simp only [step] at hs
    split at hs
    · cases hs
      exact .lock k ‹_› ‹_›
    · cases hs
  | next k =>
    simp only [step] at hs
    split at hs
    · cases hs
      exact .done k _ ‹_›
    · obtain ⟨t, ht, rfl⟩ := Option.map_eq_some_iff.1 hs
      obtain ⟨r, hstep, rfl⟩ := Option.map_eq_some_iff.1 ht
      exact .close k _ _ _ r ‹_› hstep
    · cases hs
  | advance k =>
    simp only [step] at hs
    split at hs
    · split at hs
      · split_ifs at hs with hover
        cases hs
        exact .advance k _ _ _ _ ‹_› ⟨_, ‹_›, hover⟩
      · cases hs
    · cases hs
  | receiver i l =>
    obtain ⟨r, hstep, rfl⟩ := Option.map_eq_some_iff.1 hs
    exact .receiver i l r hstep

end BusClosing

variable {hr : ∀ i, (rs i).Closes}

/-- What a step of a receiver does to the calls of its `close`. -/
theorem call_kept_update {i : Fin n} {m : (rs i).Label} {r : (rs i).State}
    (hs : (rs i).closers.step (s.receivers i) m = some r) (j : Fin n) {k : ℕ} {c : CloseCall}
    (hc : (s.receivers j).calls[k]? = some c) :
    ∃ c', (Function.update s.receivers i r j).calls[k]? = some c'
      ∧ (c.stage.over = true → c' = c) := by
  by_cases hj : j = i
  · subst hj
    rw [Function.update_self]
    exact ClosersState.call_kept hs hc
  · rw [Function.update_of_ne hj]
    exact ⟨c, hc, fun _ => rfl⟩

theorem CallOver.update {i : Fin n} {m : (rs i).Label} {r : (rs i).State}
    (hs : (rs i).closers.step (s.receivers i) m = some r) {p : Fin n × ℕ}
    (h : CallOver s.receivers p) : CallOver (Function.update s.receivers i r) p := by
  obtain ⟨c, hc, hover⟩ := h
  obtain ⟨c', hc', hkept⟩ := call_kept_update hs p.1 hc
  exact ⟨c', hc', by rw [hkept hover, hover]⟩

theorem BusCloser.Sound.update {i : Fin n} {m : (rs i).Label} {r : (rs i).State}
    (hs : (rs i).closers.step (s.receivers i) m = some r) {c : BusCloser n}
    (h : c.Sound s.receivers) : c.Sound (Function.update s.receivers i r) := by
  cases c with
  | waiting => trivial
  | closing past todo => exact ⟨h.1, fun p hp => (h.2 p hp).update hs⟩
  | awaiting past j call todo =>
    obtain ⟨hall, hpast, c, hc⟩ := h
    obtain ⟨c', hc', -⟩ := call_kept_update hs j hc
    exact ⟨hall, fun p hp => (hpast p hp).update hs, c', hc'⟩
  | done past => exact ⟨h.1, fun p hp => (h.2 p hp).update hs⟩

theorem receivers_update (h : BusClosingInv hr s) {i : Fin n} {m : (rs i).Label}
    {r : (rs i).State} (hs : (rs i).closers.step (s.receivers i) m = some r) (j : Fin n) :
    ClosersInv (rs j).view (hr j).accepted (hr j).Inv (Function.update s.receivers i r j) := by
  by_cases hj : j = i
  · subst hj
    rw [Function.update_self]
    exact closersInv_step (hr j).closable (h.receivers j) hs
  · rw [Function.update_of_ne hj]
    exact h.receivers j

/-- The call whose state changes is the holder before and after. -/
theorem held_set {k : ℕ} {c : BusCloser n}
    (h : ∀ j, s.maintain = some j ↔ ∃ c, s.closers[j]? = some c ∧ c.holds = true)
    (hk : s.closers[k]? = some c) (hc : c.holds = true) {c' : BusCloser n}
    (hc' : c'.holds = true) (j : ℕ) :
    s.maintain = some j ↔ ∃ c, (s.closers.set k c')[j]? = some c ∧ c.holds = true := by
  have hlt := (List.getElem?_eq_some_iff.1 hk).1
  by_cases hj : k = j
  · subst hj
    exact ⟨fun _ => ⟨c', List.getElem?_set_self hlt, hc'⟩, fun _ => (h k).2 ⟨c, hk, hc⟩⟩
  · rw [List.getElem?_set_ne hj]
    exact h j

theorem busClosingInv_step (h : BusClosingInv hr s) (hs : s.step l = some s') :
    BusClosingInv hr s' := by
  have hsound : ∀ {k : ℕ} {c : BusCloser n}, s.closers[k]? = some c → c.Sound s.receivers :=
    fun hk => h.sweeps _ (List.mem_of_getElem? hk)
  have hshut : ∀ {k : ℕ} {c : BusCloser n} (c' : BusCloser n), s.closers[k]? = some c →
      c ≠ .waiting → ∀ c'' ∈ s.closers.set k c', c'' ≠ .waiting → s.closed = true :=
    fun c' hk hc _ _ _ => h.shut _ (List.mem_of_getElem? hk) hc
  cases BusClosing.move hs with
  | call =>
    refine ⟨h.receivers, fun k => ?_, ?_, ?_⟩
    · rw [h.held k]
      constructor
      · rintro ⟨c, hc, hh⟩
        exact ⟨c, by rw [List.getElem?_append_left (List.getElem?_eq_some_iff.1 hc).1, hc], hh⟩
      · rintro ⟨c, hc, hh⟩
        rw [List.getElem?_append] at hc
        split_ifs at hc
        · exact ⟨c, hc, hh⟩
        · obtain rfl := List.mem_singleton.1 (List.mem_of_getElem? hc)
          cases hh
    · rw [List.forall_mem_append, List.forall_mem_singleton]
      exact ⟨h.shut, fun hne => absurd rfl hne⟩
    · rw [List.forall_mem_append, List.forall_mem_singleton]
      exact ⟨h.sweeps, trivial⟩
  | lock k hk hfree =>
    have hno : ∀ j : ℕ, ¬ ∃ c, s.closers[j]? = some c ∧ c.holds = true := by
      intro j hj
      rw [(h.held j).2 hj] at hfree
      cases hfree
    have hlt := (List.getElem?_eq_some_iff.1 hk).1
    refine ⟨h.receivers, fun j => ?_, fun _ _ _ => rfl,
      Pool.forall_mem_set h.sweeps k ⟨rfl, List.forall_mem_nil _⟩⟩
    show some k = some j ↔ ∃ c : BusCloser n, (s.closers.set k _)[j]? = some c ∧ c.holds = true
    by_cases hj : k = j
    · subst hj
      exact ⟨fun _ => ⟨_, List.getElem?_set_self hlt, rfl⟩, fun _ => rfl⟩
    · rw [List.getElem?_set_ne hj]
      exact ⟨fun he => absurd (Option.some.inj he) hj, fun hheld => absurd hheld (hno j)⟩
  | done k past hk =>
    have hmine := (h.held k).2 ⟨_, hk, rfl⟩
    have hlt := (List.getElem?_eq_some_iff.1 hk).1
    obtain ⟨hall, hpast⟩ := hsound hk
    rw [List.append_nil] at hall
    refine ⟨h.receivers, fun j => ?_, hshut _ hk (by rintro ⟨⟩),
      Pool.forall_mem_set h.sweeps k ⟨hall, hpast⟩⟩
    show none = some j ↔ ∃ c : BusCloser n, (s.closers.set k _)[j]? = some c ∧ c.holds = true
    refine ⟨by rintro ⟨⟩, ?_⟩
    rintro ⟨c, hc, hh⟩
    by_cases hj : k = j
    · subst hj
      rw [List.getElem?_set_self hlt] at hc
      cases hc
      cases hh
    · rw [List.getElem?_set_ne hj] at hc
      -- The lock was this call's.
      have := (h.held j).2 ⟨c, hc, hh⟩
      rw [hmine] at this
      exact absurd (Option.some.inj this) hj
  | close k past i todo r hk hstep =>
    obtain ⟨hall, hpast⟩ := hsound hk
    refine ⟨receivers_update h hstep, held_set h.held hk rfl rfl, hshut _ hk (by rintro ⟨⟩), ?_⟩
    refine Pool.forall_mem_set (fun c hc => (h.sweeps c hc).update hstep) k
      ⟨hall, fun p hp => (hpast p hp).update hstep, ?_⟩
    -- The new call is the receiver's last.
    rw [Function.update_self]
    cases hstep
    exact ⟨⟨.created, false⟩, List.getElem?_concat_length⟩
  | advance k past i call todo hk hover =>
    obtain ⟨hall, hpast, -⟩ := hsound hk
    refine ⟨h.receivers, held_set h.held hk rfl rfl, hshut _ hk (by rintro ⟨⟩),
      Pool.forall_mem_set h.sweeps k ⟨?_, ?_⟩⟩
    · rw [List.map_append, List.append_assoc]
      exact hall
    · rw [List.forall_mem_append, List.forall_mem_singleton]
      exact ⟨hpast, hover⟩
  | receiver i m r hstep =>
    exact ⟨receivers_update h hstep, h.held, h.shut, fun c hc => (h.sweeps c hc).update hstep⟩

theorem busClosingInv_of_reachable (h : (busClosing rs).Reachable s) : BusClosingInv hr s := by
  refine Lts.invariant (J := BusClosingInv hr) ?_ (fun _ _ _ h hs => busClosingInv_step h hs) h
  have hstart : ∀ i, (rs i).closers.Reachable (rs i).closers.start := fun _ => .start
  refine ⟨fun i => closersInv_of_reachable (hr i).closable (hstart i), fun k => ?_,
    List.forall_mem_nil _, List.forall_mem_nil _⟩
  simp [busClosing, BusClosing.start]

/-- The steps a call of `Bus::close` has still to take, those for its calls of the receivers' with
them. -/
def BusCloser.work : BusCloser n → ℕ
  | waiting => 7 * n + 2
  | closing _ todo => 7 * todo.length + 1
  | awaiting _ _ _ todo => 7 * todo.length + 2
  | done _ => 0

variable (hr) in
def BusClosing.work (s : BusClosing rs) : ℕ :=
  ∑ i, (s.receivers i).work (rs i).view (hr i).work + (s.closers.map BusCloser.work).sum

variable (hr) in
/-- The steps that the receivers and the callers take by themselves, with the timeouts or
without. -/
def BusClosingLabel.own (timeouts : Bool) : BusClosingLabel rs → Bool
  | .call => false
  | .lock _ | .next _ | .advance _ => true
  | .receiver i l => l.own (hr i).own || timeouts && l.isTimeout

/-- Every step of its own takes from the work. -/
theorem busClosing_work (h : BusClosingInv hr s) {timeouts : Bool}
    (hl : l.own hr timeouts = true) (hs : s.step l = some s') : s'.work hr < s.work hr := by
  have hset : ∀ {k : ℕ} {c : BusCloser n} (c' : BusCloser n), s.closers[k]? = some c →
      ((s.closers.set k c').map BusCloser.work).sum + c.work
        = (s.closers.map BusCloser.work).sum + c'.work := fun c' hk =>
    Pool.sum_map_set_add BusCloser.work c' hk
  have hupdate : ∀ (i : Fin n) (r : (rs i).State), ∑ j, ClosersState.work (rs j).view (hr j).work
        (Function.update s.receivers i r j) + (s.receivers i).work (rs i).view (hr i).work
      = ∑ j, (s.receivers j).work (rs j).view (hr j).work + r.work (rs i).view (hr i).work :=
    Lts.sum_update_add (fun j => ClosersState.work (rs j).view (hr j).work) s.receivers
  cases BusClosing.move hs with
  | call => cases hl
  | lock k hk =>
    have := hset (.closing [] (List.finRange n)) hk
    simp only [BusCloser.work, List.length_finRange] at this
    simp only [BusClosing.work, BusClosing.setCloser]
    omega
  | done k past hk =>
    have := hset (.done past) hk
    simp only [BusCloser.work, List.length_nil] at this
    simp only [BusClosing.work, BusClosing.setCloser]
    omega
  | close k past i todo r hk hstep =>
    have hclosers := hset (.awaiting past i (s.receivers i).calls.length todo) hk
    have hreceivers := hupdate i r
    have hr : r.work (rs i).view (hr i).work
        = (s.receivers i).work (rs i).view (hr i).work + 5 := by
      cases hstep
      simp [ClosersState.work, CloseStage.work, Nat.add_assoc]
    simp only [BusCloser.work, List.length_cons] at hclosers
    simp only [BusClosing.work, BusClosing.setCloser]
    omega
  | advance k past i call todo hk =>
    have := hset (.closing (past ++ [(i, call)]) todo) hk
    simp only [BusCloser.work] at this
    simp only [BusClosing.work, BusClosing.setCloser]
    omega
  | receiver i m r hstep =>
    have hreceivers := hupdate i r
    have hless : r.work (rs i).view (hr i).work
        < (s.receivers i).work (rs i).view (hr i).work := by
      rcases Bool.or_eq_true_iff.1 hl with hown | htimeout
      · exact closers_work (hr i).closable (h.receivers i) hown hstep
      · obtain ⟨-, htimeout⟩ := Bool.and_eq_true_iff.1 htimeout
        cases m <;> simp only [ClosersLabel.isTimeout, Bool.false_eq_true] at htimeout
        exact ClosersState.timeout_work (rs i).intoBoxed (rs i).poller _ hstep
    simp only [BusClosing.work]
    omega

/-- No call of `Bus::close` is left behind where the timeouts come or no loop has panicked. -/
theorem busClosing_rest (h : BusClosingInv hr s) {timeouts : Bool}
    (hq : (busClosing rs).Quiet (BusClosingLabel.own hr timeouts) s)
    (hloops : timeouts = true ∨ ∀ i, (s.receivers i).served.loop ≠ .aborted) :
    ∀ c ∈ s.closers, ∃ past, c = .done past := by
  have hno : ∀ l : BusClosingLabel rs, l.own hr timeouts = true → s.step l = none := hq
  have hreceiver : ∀ i (m : (rs i).Label), (m.own (hr i).own || timeouts && m.isTimeout) = true →
      (rs i).closers.step (s.receivers i) m = none := by
    intro i m hm
    have := hno (.receiver i m) hm
    simpa [BusClosing.step, BusClosing.stepReceiver] using this
  have hover : ∀ i, ∀ c ∈ (s.receivers i).calls, c.stage.over = true := by
    intro i
    rcases hloops with rfl | hloops
    · exact ClosersState.calls_over (hreceiver i)
    · refine closers_rest (hr i).closable (h.receivers i) (fun m hm => hreceiver i m ?_) (hloops i)
      rw [hm, Bool.true_or]
  have hfree : ∀ c ∈ s.closers, c.holds = false := by
    intro c hc
    obtain ⟨k, hk⟩ := List.getElem?_of_mem hc
    rcases c with _ | ⟨past, _ | ⟨i, todo⟩⟩ | ⟨past, i, call, todo⟩ | _
    · rfl
    · have := hno (.next k) rfl
      simp [BusClosing.step, hk] at this
    · have := hno (.next k) rfl
      simp [BusClosing.step, hk, BusClosing.stepReceiver, PolledReceiver.closers, servedClosers,
        ClosersState.step] at this
    · obtain ⟨-, -, d, hd⟩ := h.sweeps _ hc
      have := hno (.advance k) rfl
      simp [BusClosing.step, hk, hd, hover i d (List.mem_of_getElem? hd)] at this
    · rfl
  intro c hc
  obtain ⟨k, hk⟩ := List.getElem?_of_mem hc
  have hnone : s.maintain = none := by
    rcases hm : s.maintain with _ | j
    · rfl
    · obtain ⟨d, hd, hholds⟩ := (h.held j).1 hm
      rw [hfree d (List.mem_of_getElem? hd)] at hholds
      cases hholds
  cases c with
  | waiting =>
    have := hno (.lock k) rfl
    simp [BusClosing.step, hk, hnone] at this
  | done past => exact ⟨past, rfl⟩
  | closing | awaiting => cases hfree _ hc

/-- What a call of `Bus::close` that has come back leaves behind. -/
theorem busClosing_done (h : BusClosingInv hr s) {past : List (Fin n × ℕ)}
    (hc : BusCloser.done past ∈ s.closers) : s.closed = true ∧ past.map Prod.fst = List.finRange n
      ∧ ∀ p ∈ past, ∃ c, (s.receivers p.1).calls[p.2]? = some c ∧ c.stage.over = true
        ∧ (c.stage = .returned → (s.receivers p.1).served.loop = .ended
          ∧ (s.receivers p.1).served.processed (rs p.1).view
            = (rs p.1).view.stx (s.receivers p.1).served.poller
          ∧ (rs p.1).view.silent (s.receivers p.1).served.poller = true) := by
  obtain ⟨hall, hpast⟩ := h.sweeps _ hc
  refine ⟨h.shut _ hc (by rintro ⟨⟩), hall, fun p hp => ?_⟩
  obtain ⟨c, hcall, hover⟩ := hpast p hp
  exact ⟨c, hcall, hover, (h.receivers p.1).returned (List.mem_of_getElem? hcall)⟩

/-- Any number of callers close a bus of local receivers, in whichever order the steps come: one
at a time sweeps the receivers; one that has come back has closed the bus and each receiver in the
bus's order, a receiver's close having returned only at the end of its stream; and left alone all
come back, by the timeouts, or without any where no receiver's loop panics. -/
theorem bus_closes (rs : Fin n → HandlerReceiver B) {s : BusClosing fun i => (rs i).polled}
    (h : (busClosing fun i => (rs i).polled).Reachable s) :
    (∀ (j k : ℕ) (c d : BusCloser n), s.closers[j]? = some c → s.closers[k]? = some d →
      c.holds = true → d.holds = true → j = k)
    ∧ (∀ past, BusCloser.done past ∈ s.closers → s.closed = true
      ∧ past.map Prod.fst = List.finRange n
      ∧ ∀ p ∈ past, ∃ c, (s.receivers p.1).calls[p.2]? = some c ∧ c.stage.over = true
        ∧ (c.stage = .returned → (s.receivers p.1).served.loop = .ended
          ∧ (s.receivers p.1).served.processed (rs p.1).polled.view
            = (rs p.1).polled.view.stx (s.receivers p.1).served.poller
          ∧ (rs p.1).polled.view.silent (s.receivers p.1).served.poller = true))
    ∧ ∀ timeouts, (busClosing fun i => (rs i).polled).Settles
        (BusClosingLabel.own (fun i => (rs i).closes) timeouts) (s.work fun i => (rs i).closes)
        (fun t => (timeouts = true ∨ ∀ i, (t.receivers i).served.loop ≠ .aborted) →
          ∀ c ∈ t.closers, ∃ past, c = .done past) s := by
  have hinv : BusClosingInv (fun i => (rs i).closes) s := busClosingInv_of_reachable h
  refine ⟨fun j k c d hj hk hcj hdk => ?_, fun past hc => busClosing_done hinv hc,
    fun timeouts => ?_⟩
  · have hheld := (hinv.held j).2 ⟨c, hj, hcj⟩
    rw [(hinv.held k).2 ⟨d, hk, hdk⟩] at hheld
    exact (Option.some.inj hheld).symm
  · refine Lts.settles_of_work (J := BusClosingInv fun i => (rs i).closes) ?_ ?_ hinv
    · exact fun s l s' h hl hs => ⟨busClosingInv_step h hs, busClosing_work h hl hs⟩
    · exact fun s h hq => busClosing_rest h hq

/-- A bus of one receiver. -/
def oneReceiver (_ : Fin 1) : HandlerReceiver Unit :=
  .bufferUnordered Unit Unit GenericError inferInstance id 1 ⟨1⟩ (by decide) (by decide)

/-- The first of two callers has closed a bus of one receiver, the second is closing it again. -/
theorem first_caller_closes :
    ∃ s, (busClosing fun i => (oneReceiver i).polled).Reachable s
      ∧ s.closers = [.done [(0, 0)], .awaiting [] 0 1 []]
      ∧ ∀ timeouts, (busClosing fun i => (oneReceiver i).polled).Settles
        (BusClosingLabel.own (fun i => (oneReceiver i).closes) timeouts)
        (s.work fun i => (oneReceiver i).closes)
        (fun t => (timeouts = true ∨ ∀ i, (t.receivers i).served.loop ≠ .aborted) →
          ∀ c ∈ t.closers, ∃ past, c = .done past) s := by
  have hrun : (busClosing fun i => (oneReceiver i).polled).run [.call, .call, .lock 0, .next 0,
      .receiver 0 (.push 0), .receiver 0 (.poll 0), .receiver 0 (.serve (.run .recv)),
      .receiver 0 (.serve (.run .recv)), .receiver 0 (.serve .endStream), .receiver 0 (.resume 0),
      .advance 0, .next 0, .lock 1, .next 1] = some _ := rfl
  have hreach := Lts.reachable_of_run hrun
  exact ⟨_, hreach, rfl, (bus_closes oneReceiver hreach).2.2⟩

end Bus

end MessageBus
