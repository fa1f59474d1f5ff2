import MessageBus.Proofs.Counted

/-!
# A handler item is one handler used in sequence

The calls of an item are over one after the other, as they hold its mutex, so their sequence is
where the subscriptions interleave: the handler is its fold, and what a subscription answers is
what its calls return in it (`SynchronizedItem.Linear`).
-/

namespace MessageBus

variable {ι H : Type} {M R E : ι → Type}

namespace ItemCall

def sub : ItemCall M → ι
  | .handle i _ _ => i
  | .sync i => i

/-- The state the call leaves. -/
def apply (f : SynchronizedHandler M R E H) (h : H) : ItemCall M → H
  | .handle i _ msg => (f.handle i h msg).1
  | .sync i => (f.sync i h).1

/-- What the call is answered with, nothing where it panics. -/
def event (f : SynchronizedHandler M R E H) (h : H) : ItemCall M → Option (Σ i, Event (R i) (E i))
  | .handle i mid msg =>
    (f.handle i h msg).2.map fun resp => ⟨i, .response mid (resp.mapError .other)⟩
  | .sync i => (f.sync i h).2.map fun resp => ⟨i, .synchronized (resp.mapError .other)⟩

/-- The answers to the calls, made in sequence. -/
def replay (f : SynchronizedHandler M R E H) : H → List (ItemCall M) →
    List (Σ i, Event (R i) (E i))
  | _, [] => []
  | h, c :: cs => (c.event f h).toList ++ replay f (c.apply f h) cs

theorem event_fst {f : SynchronizedHandler M R E H} {h : H} {c : ItemCall M}
    {e : Σ i, Event (R i) (E i)} (he : e ∈ c.event f h) : e.1 = c.sub := by
  cases c with
  | handle | sync =>
    obtain ⟨resp, -, rfl⟩ := Option.map_eq_some_iff.1 he
    rfl

/-- A call answers its own subscription only. -/
theorem filter_event [DecidableEq ι] (f : SynchronizedHandler M R E H) (h : H) (c : ItemCall M)
    (i : ι) : (c.event f h).toList.filter (·.1 = i)
      = if c.sub = i then (c.event f h).toList else [] := by
  split_ifs with hc
  · rw [List.filter_eq_self]
    intro e he
    simpa [event_fst (Option.mem_toList.1 he)] using hc
  · rw [List.filter_eq_nil_iff]
    intro e he
    simpa [event_fst (Option.mem_toList.1 he)] using hc

theorem replay_append (f : SynchronizedHandler M R E H) (h : H) (cs cs' : List (ItemCall M)) :
    replay f h (cs ++ cs') = replay f h cs ++ replay f (cs.foldl (apply f) h) cs' := by
  induction cs generalizing h with
  | nil => rfl
  | cons c cs ih => simp [replay, ih]

theorem mem_replay {f : SynchronizedHandler M R E H} {e : Σ i, Event (R i) (E i)} :
    ∀ {cs : List (ItemCall M)} {h : H}, e ∈ replay f h cs →
      ∃ pre c post, cs = pre ++ c :: post ∧ e ∈ c.event f (pre.foldl (apply f) h)
  | [], _, he => nomatch he
  | c :: cs, h, he => by
    rw [replay, List.mem_append, Option.mem_toList] at he
    rcases he with he | he
    · exact ⟨[], c, cs, rfl, he⟩
    · obtain ⟨pre, c', post, rfl, hev⟩ := mem_replay he
      exact ⟨c :: pre, c', post, rfl, hev⟩

end ItemCall

/-- The call an item of the queue asks for. -/
def Request.itemCall? (i : ι) : Request (M i) → Option (ItemCall M)
  | .request mid msg _ => some (.handle i mid msg)
  | .action .sync => some (.sync i)
  | .action _ => none

/-- A `Response`, or the answer to a `Sync`. -/
def Event.ofCall {R E : Type} : Event R E → Bool
  | .response _ _ | .synchronized _ => true
  | _ => false

namespace Subscription.Pc

variable {M R E : Type}

def inCall : Pc M R E H → Bool
  | .handling _ _ _ | .syncing _ => true
  | _ => false

/-- The state the call in hand began in. -/
def seen? : Pc M R E H → Option H
  | .handling _ _ seen | .syncing seen => some seen
  | _ => none

theorem inCall_of_seen {pc : Pc M R E H} {h : H} (hpc : pc.seen? = some h) : pc.inCall = true := by
  cases pc <;> first | rfl | cases hpc

end Subscription.Pc

/-- The call in hand. -/
def Subscription.Pc.pending (i : ι) : Subscription.Pc (M i) (R i) (E i) H → List (ItemCall M)
  | .calling mid msg | .handling mid msg _ => [.handle i mid msg]
  | .syncCalling | .syncing _ => [.sync i]
  | _ => []

/-- The answer in hand. -/
def Subscription.Pc.unsent (i : ι) :
    Subscription.Pc (M i) (R i) (E i) H → List (Σ i, Event (R i) (E i))
  | .returned mid resp => [⟨i, .response mid (resp.mapError .other)⟩]
  | .synced resp => [⟨i, .synchronized (resp.mapError .other)⟩]
  | _ => []

namespace SynchronizedItem

variable [DecidableEq ι] {f : SynchronizedHandler M R E H} {h₀ : H}
  {s s' : SynchronizedItem M R E H} {l : ItemLabel M}

/-- The answers of a subscription so far. -/
def answers (i : ι) (c : Subscription (M i) (R i) (E i) H) : List (Σ i, Event (R i) (E i)) :=
  (c.stx.filter Event.ofCall).map (Sigma.mk i)

/-- What a subscription has done is its part of the calls. -/
structure InPart (f : SynchronizedHandler M R E H) (h₀ : H) (calls : List (ItemCall M)) (i : ι)
    (c : Subscription (M i) (R i) (E i) H) : Prop where
  order : calls.filter (·.sub = i) ++ c.pc.pending i = c.taken.filterMap (Request.itemCall? i)
  events : answers i c ++ c.pc.unsent i = (ItemCall.replay f h₀ calls).filter (·.1 = i)

/-- The calls that are over, in sequence, are all that happened to the handler. -/
structure Linear (f : SynchronizedHandler M R E H) (h₀ : H) (s : SynchronizedItem M R E H) :
    Prop where
  handler : s.handler = s.calls.foldl (ItemCall.apply f) h₀
  holder : ∀ i, (s.subs i).pc.inCall = true → s.lock = some i
  seen : ∀ i h, (s.subs i).pc.seen? = some h → h = s.handler
  part : ∀ i, InPart f h₀ s.calls i (s.subs i)

theorem linear_start : Linear f h₀ (start h₀ : SynchronizedItem M R E H) :=
  ⟨rfl, nofun, nofun, fun _ => ⟨rfl, rfl⟩⟩

/-- A subscription moves on without calling the handler. -/
theorem Linear.set (h : Linear f h₀ s) {i : ι} {c : Subscription (M i) (R i) (E i) H}
    (hpc : c.pc = (s.subs i).pc ∨ c.pc.inCall = false ∧ c.pc.seen? = none)
    (hc : InPart f h₀ s.calls i c) : Linear f h₀ (s.set i c) where
  handler := h.handler
  holder := by
    refine forall_set (J := fun i c => c.pc.inCall = true → s.lock = some i) h.holder ?_
    rcases hpc with hpc | ⟨hpc, -⟩
    · exact hpc ▸ h.holder i
    · simp [hpc]
  seen := by
    refine forall_set (J := fun _ c => ∀ h, c.pc.seen? = some h → h = s.handler) h.seen ?_
    rcases hpc with hpc | ⟨-, hpc⟩
    · exact hpc ▸ h.seen i
    · simp [hpc]
  part := forall_set h.part hc

theorem InPart.congr {calls : List (ItemCall M)} {i : ι}
    {c c' : Subscription (M i) (R i) (E i) H} (h : InPart f h₀ calls i c)
    (ht : c'.taken = c.taken) (hs : c'.stx = c.stx) (hp : c'.pc.pending i = c.pc.pending i)
    (hu : c'.pc.unsent i = c.pc.unsent i) : InPart f h₀ calls i c' := by
  obtain ⟨ho, he⟩ := h
  constructor
  · rw [ht, hp]
    exact ho
  · rw [answers, hs, hu]
    exact he

theorem inPart_body {calls : List (ItemCall M)} {i : ι} {c : Subscription (M i) (R i) (E i) H}
    (h : InPart f h₀ calls i c) (hpc : c.pc = .recv) (item : Request (M i))
    (rx : List (Request (M i))) :
    InPart f h₀ calls i
      (Subscription.body { c with rx := rx, taken := c.taken ++ [item] } item) := by
  obtain ⟨ho, he⟩ := h
  rw [hpc] at ho he
  simp only [Subscription.Pc.pending, List.append_nil] at ho
  rcases item with a | ⟨mid, msg, req⟩
  · rcases a with id | _ | _ | _ | _
    · refine ⟨?_, ?_⟩
      · simp [Subscription.body, Subscription.emit, hpc, Subscription.Pc.pending, ho,
          Request.itemCall?]
      · simpa [Subscription.body, Subscription.emit, hpc, answers, Event.ofCall] using he
    · refine ⟨?_, ?_⟩
      · simp [Subscription.body, Subscription.emit, hpc, Subscription.Pc.pending, ho,
          Request.itemCall?]
      · simpa [Subscription.body, Subscription.emit, hpc, answers, Event.ofCall] using he
    · refine ⟨?_, he⟩
      simp [Subscription.body, Subscription.Pc.pending, ho, Request.itemCall?]
    · refine ⟨?_, ?_⟩
      · simp [Subscription.body, hpc, Subscription.Pc.pending, ho, Request.itemCall?]
      · simpa [Subscription.body, hpc, answers] using he
    · refine ⟨?_, he⟩
      simp [Subscription.body, Subscription.Pc.pending, ho, Request.itemCall?]
  · refine ⟨?_, he⟩
    simp [Subscription.body, Subscription.Pc.pending, ho, Request.itemCall?]

/-- The answer in hand goes out. -/
theorem InPart.emit {calls : List (ItemCall M)} {i : ι} {c : Subscription (M i) (R i) (E i) H}
    (h : InPart f h₀ calls i c) {ev : Event (R i) (E i)} (hev : ev.ofCall = true)
    (hpending : c.pc.pending i = []) (hunsent : c.pc.unsent i = [⟨i, ev⟩]) :
    InPart f h₀ calls i { c.emit ev with pc := .recv } where
  order := by
    have ho := h.order
    rwa [hpending] at ho
  events := by
    rw [← h.events, hunsent]
    simp [answers, Subscription.emit, hev, Subscription.Pc.unsent]

omit [DecidableEq ι] in
theorem inCall_body {c : Subscription (M i) (R i) (E i) H} (hpc : c.pc = .recv)
    (item : Request (M i)) :
    (c.body item).pc.inCall = false ∧ (c.body item).pc.seen? = none := by
  rcases item with a | ⟨mid, msg, req⟩
  · cases a <;> simp [Subscription.body, Subscription.emit, hpc, Subscription.Pc.inCall,
      Subscription.Pc.seen?]
  · exact ⟨rfl, rfl⟩

/-- A call of one subscription is nothing to the others. -/
theorem InPart.other {calls : List (ItemCall M)} {j : ι} {c : Subscription (M j) (R j) (E j) H}
    (h : InPart f h₀ calls j c) {call : ItemCall M} (hj : call.sub ≠ j) :
    InPart f h₀ (calls ++ [call]) j c where
  order := by
    rw [List.filter_append, List.filter_cons_of_neg (by simpa using hj), List.filter_nil,
      List.append_nil]
    exact h.order
  events := by
    rw [ItemCall.replay_append, List.filter_append, ItemCall.replay, ItemCall.replay,
      List.append_nil, ItemCall.filter_event, if_neg hj, List.append_nil]
    exact h.events

/-- The call in hand ends, in an answer that is in hand now. -/
theorem InPart.endCall {calls : List (ItemCall M)} {i : ι} {c : Subscription (M i) (R i) (E i) H}
    (h : InPart f h₀ calls i c) {call : ItemCall M} (hsub : call.sub = i)
    (hpending : c.pc.pending i = [call]) (hunsent : c.pc.unsent i = [])
    {pc : Option (Subscription.Pc (M i) (R i) (E i) H)} (hpc : ∀ pc' ∈ pc, pc'.pending i = [])
    (hev : pc.elim [] (·.unsent i) = (call.event f (calls.foldl (ItemCall.apply f) h₀)).toList) :
    InPart f h₀ (calls ++ [call]) i (c.endCall pc) := by
  have horder : (calls ++ [call]).filter (·.sub = i) = c.taken.filterMap (Request.itemCall? i) := by
    rw [← h.order, hpending, List.filter_append]
    simp [hsub]
  have hevents : answers i c ++ pc.elim [] (·.unsent i)
      = (ItemCall.replay f h₀ (calls ++ [call])).filter (·.1 = i) := by
    rw [ItemCall.replay_append, List.filter_append, ← h.events, hunsent, List.append_nil,
      ItemCall.replay, ItemCall.replay, List.append_nil, ItemCall.filter_event, if_pos hsub, hev]
  cases pc with
  | none => exact ⟨by rw [horder]; exact List.append_nil _, hevents⟩
  | some pc => exact ⟨by rw [horder]; simp [Subscription.endCall, hpc pc rfl], hevents⟩

theorem Linear.finish (h : Linear f h₀ s) (i : ι) (call : ItemCall M)
    (hin : (s.subs i).pc.inCall = true) (hsub : call.sub = i)
    (hpending : (s.subs i).pc.pending i = [call]) (hunsent : (s.subs i).pc.unsent i = [])
    {pc : Option (Subscription.Pc (M i) (R i) (E i) H)}
    (hpc : ∀ pc' ∈ pc, pc'.pending i = [] ∧ pc'.inCall = false)
    (hev : pc.elim [] (·.unsent i) = (call.event f s.handler).toList) :
    Linear f h₀ { s.set i ((s.subs i).endCall pc) with
      handler := call.apply f s.handler, lock := none, calls := s.calls ++ [call] } := by
  have hlock := h.holder i hin
  have hidle : ∀ j, ((s.set i ((s.subs i).endCall pc)).subs j).pc.inCall = false := by
    intro j
    by_cases hj : j = i
    · subst hj
      rw [subs_set_self]
      cases pc with
      | none => rfl
      | some pc => exact (hpc pc rfl).2
    · rw [subs_set_ne hj]
      by_contra hc
      have := h.holder j (by simpa using hc)
      rw [hlock] at this
      exact hj (Option.some.inj this).symm
  constructor
  · rw [List.foldl_append, ← h.handler]
    rfl
  · intro j hj
    rw [hidle j] at hj
    cases hj
  · intro j h' hj
    have := Subscription.Pc.inCall_of_seen hj
    rw [hidle j] at this
    cases this
  · intro j
    by_cases hj : j = i
    · subst hj
      rw [h.handler] at hev
      simp only [subs_set_self]
      exact (h.part j).endCall hsub hpending hunsent (fun pc' hpc' => (hpc pc' hpc').1) hev
    · show InPart f h₀ (s.calls ++ [call]) j ((s.set i _).subs j)
      rw [subs_set_ne hj]
      exact (h.part j).other (by rw [hsub]; exact Ne.symm hj)

/-- A subscription gets the free mutex for the call in hand. -/
theorem Linear.acquire (h : Linear f h₀ s) (hlock : s.lock = none) {i : ι}
    {pc : Subscription.Pc (M i) (R i) (E i) H}
    (hpending : pc.pending i = (s.subs i).pc.pending i)
    (hunsent : pc.unsent i = (s.subs i).pc.unsent i) (hseen : pc.seen? = some s.handler) :
    Linear f h₀ { s.set i { s.subs i with pc } with lock := some i } where
  handler := h.handler
  holder j hj := by
    by_cases hji : j = i
    · rw [hji]
    · have hj : ((s.set i { s.subs i with pc }).subs j).pc.inCall = true := hj
      rw [subs_set_ne hji] at hj
      have := h.holder j hj
      rw [hlock] at this
      cases this
  seen j h' hj := by
    have hj : ((s.set i { s.subs i with pc }).subs j).pc.seen? = some h' := hj
    by_cases hji : j = i
    · subst hji
      rw [subs_set_self, hseen] at hj
      exact (Option.some.inj hj).symm
    · rw [subs_set_ne hji] at hj
      exact h.seen j h' hj
  part := forall_set h.part ((h.part i).congr rfl rfl hpending hunsent)

theorem linear_step (h : Linear f h₀ s) (hs : s.step f l = some s') : Linear f h₀ s' := by
  cases move hs with
  | push i item => exact h.set (.inl rfl) ((h.part i).congr rfl rfl rfl rfl)
  | take i item rx hpc =>
    exact h.set (.inr (inCall_body (c := { s.subs i with rx := rx, taken := _ }) hpc item))
      (inPart_body (h.part i) hpc item rx)
  | ends i hpc =>
    exact h.set (.inr ⟨rfl, rfl⟩) ((h.part i).congr rfl rfl (by rw [hpc]; rfl) (by rw [hpc]; rfl))
  | call i mid msg hlock hpc => exact h.acquire hlock (by rw [hpc]; rfl) (by rw [hpc]; rfl) rfl
  | callSync i hlock hpc => exact h.acquire hlock (by rw [hpc]; rfl) (by rw [hpc]; rfl) rfl
  | handled i mid msg seen hpc =>
    obtain rfl := h.seen i seen (by rw [hpc]; rfl)
    refine h.finish i (.handle i mid msg) (by rw [hpc]; rfl) rfl (by rw [hpc]; rfl)
      (by rw [hpc]; rfl) (fun pc' hpc' => ?_) ?_
    · obtain ⟨resp, -, rfl⟩ := Option.map_eq_some_iff.1 hpc'
      exact ⟨rfl, rfl⟩
    · simp only [ItemCall.event]
      cases (f.handle i s.handler msg).2 <;> rfl
  | synced i seen hpc =>
    obtain rfl := h.seen i seen (by rw [hpc]; rfl)
    refine h.finish i (.sync i) (by rw [hpc]; rfl) rfl (by rw [hpc]; rfl)
      (by rw [hpc]; rfl) (fun pc' hpc' => ?_) ?_
    · obtain ⟨resp, -, rfl⟩ := Option.map_eq_some_iff.1 hpc'
      exact ⟨rfl, rfl⟩
    · simp only [ItemCall.event]
      cases (f.sync i s.handler).2 <;> rfl
  | respond i mid resp hpc =>
    exact h.set (.inr ⟨rfl, rfl⟩) ((h.part i).emit rfl (by rw [hpc]; rfl) (by rw [hpc]; rfl))
  | report i resp hpc =>
    exact h.set (.inr ⟨rfl, rfl⟩) ((h.part i).emit rfl (by rw [hpc]; rfl) (by rw [hpc]; rfl))

/-- A `Response` is what its message's call returned, in the state of the item at that call. -/
theorem InPart.response {calls : List (ItemCall M)} {i : ι}
    {c : Subscription (M i) (R i) (E i) H} (h : InPart f h₀ calls i c) {mid : UInt64}
    {res : Except (Error Unit (E i)) (R i)} (hmem : .response mid res ∈ c.stx) :
    ∃ pre msg post resp, calls = pre ++ .handle i mid msg :: post
      ∧ (f.handle i (pre.foldl (ItemCall.apply f) h₀) msg).2 = some resp
      ∧ res = resp.mapError .other := by
  have hanswer : (⟨i, .response mid res⟩ : Σ i, Event (R i) (E i)) ∈ answers i c :=
    List.mem_map_of_mem (List.mem_filter.2 ⟨hmem, rfl⟩)
  have hreplay : (⟨i, .response mid res⟩ : Σ i, Event (R i) (E i))
      ∈ (ItemCall.replay f h₀ calls).filter (·.1 = i) := by
    rw [← h.events]
    exact List.mem_append_left _ hanswer
  obtain ⟨pre, call, post, rfl, he⟩ := ItemCall.mem_replay (List.mem_filter.1 hreplay).1
  cases call with
  | handle j mid' msg =>
    obtain ⟨resp, hresp, heq⟩ := Option.map_eq_some_iff.1 he
    cases heq
    exact ⟨pre, msg, post, resp, rfl, hresp, rfl⟩
  | sync j =>
    obtain ⟨resp, -, heq⟩ := Option.map_eq_some_iff.1 he
    cases heq

/-- Nothing tells the item from its handler called by one subscription at a time. -/
structure Linearized (f : SynchronizedHandler M R E H) (h₀ : H) (s : SynchronizedItem M R E H) :
    Prop where
  exclusive : ∀ i j, (s.subs i).pc.inCall = true → (s.subs j).pc.inCall = true → i = j
  order : ∀ i, s.calls.filter (·.sub = i) <+: (s.subs i).taken.filterMap (Request.itemCall? i)
  complete : ∀ i, (s.subs i).pc.idle = true →
    s.calls.filter (·.sub = i) = (s.subs i).taken.filterMap (Request.itemCall? i)
  events : ∀ i, answers i (s.subs i) <+: (ItemCall.replay f h₀ s.calls).filter (·.1 = i)
  responses : ∀ i mid res, .response mid res ∈ (s.subs i).stx → ∃ pre msg post resp,
    s.calls = pre ++ .handle i mid msg :: post
      ∧ (f.handle i (pre.foldl (ItemCall.apply f) h₀) msg).2 = some resp
      ∧ res = resp.mapError .other
  /-- The `k`-th `Flushed` is for the `k`-th `Flush`: what stands before it are the answers to the
  items before that one. -/
  flushed : ∀ i, (s.subs i).stx.filterMap Event.mark?
    <+: (s.subs i).taken.filterMap Request.mark?
  handler : s.handler = s.calls.foldl (ItemCall.apply f) h₀

/-- A handler item with any subscriptions, in every state it can reach. -/
theorem synchronized_linearizable (f : SynchronizedHandler M R E H) (h₀ : H)
    (s : SynchronizedItem M R E H) (hr : (synchronizedItem f h₀).Reachable s) :
    Linearized f h₀ s := by
  have h : Linear f h₀ s := Lts.invariant linear_start (fun _ _ _ => linear_step) hr
  have hin : ∀ i, (s.subs i).InOrder :=
    Lts.invariant (J := fun s => ∀ i, (s.subs i).InOrder) (fun _ => .start)
      (fun _ _ _ => inOrder_step) hr
  refine ⟨fun i j hi hj => ?_, fun i => ?_, fun i hi => ?_, fun i => ?_,
    fun i _ _ => (h.part i).response, fun i => (hin i).order, h.handler⟩
  · have := (h.holder i hi).symm.trans (h.holder j hj)
    exact Option.some.inj this
  · exact ⟨_, (h.part i).order⟩
  · have horder := (h.part i).order
    have hpending : (s.subs i).pc.pending i = [] := by
      cases hpc : (s.subs i).pc <;> first | rfl | simp [hpc, Subscription.Pc.idle] at hi
    rwa [hpending, List.append_nil] at horder
  · exact ⟨_, (h.part i).events⟩

/-- Two subscriptions of a counter: the one that was pushed to last gets the mutex first, and the
other one's `Flush` comes between its two calls. -/
theorem counter_linearizable :
    let f : SynchronizedHandler (fun _ : Bool => ℕ) (fun _ => ℕ) (fun _ => Unit) ℕ :=
      ⟨fun _ h n => (h + n, some (.ok h)), fun _ h => (h, some (.ok ()))⟩
    ∃ s, (synchronizedItem f 0).Reachable s ∧ s.handler = 15
      ∧ s.calls = [.handle true 1 2, .handle false 1 10, .handle true 2 3]
      ∧ (s.subs false).stx = [.response 1 (.ok 2), .flushed] ∧ Linearized f 0 s := by
  intro f
  have hrun : ((synchronizedItem f 0).run [.push false (.request 1 10 true),
      .push false (.action .flush), .push true (.request 1 2 true), .push true (.request 2 3 true),
      .recv false, .recv true, .acquire true, .finish true, .acquire false, .send true,
      .finish false, .recv true, .send false, .recv false, .acquire true, .finish true,
      .send true]).isSome = true := rfl
  have hr := Lts.reachable_of_run (Option.some_get hrun).symm
  exact ⟨_, hr, rfl, rfl, rfl, synchronized_linearizable f 0 _ hr⟩

end SynchronizedItem

end MessageBus
