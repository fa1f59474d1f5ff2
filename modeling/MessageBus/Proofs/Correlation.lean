import MessageBus.Proofs.Waiters

/-!
# Which `Response` completes which waiter

A plain send's mid comes from the counter and a request's from the waiter table, and the loop looks
both up in the table. While no plain `Response` is handled under the key of a live waiter, every
request that waits for its `Response` keeps its own waiter, so each `Response` finds the waiter
its request inserted (`corrInv_step`).
-/

namespace MessageBus

variable {R E B : Type} [StdSyncSendError E] (intoBoxed : R → B)

/-- Every waiter taken was taken by the `Response` of the request that inserted it, and a request
whose `Response` was handled has exactly that at its channel, unless its caller has gone. -/
def Correlated (s : LocalState R E B) : Prop :=
  (∀ c ∈ s.taken, c.2 = .request c.1)
    ∧ ∀ a ∈ s.answered, ∃ q, s.reqs a.1 = some q
      ∧ (s.chans a.1 = .sent (q.kind.reply intoBoxed a.2) ∨ s.chans a.1 = .dropped)

/-- A plain `Response` is handled only while its mid addresses no live waiter. -/
def SpareMid (s : LocalState R E B) : LocalLabel R E → Prop
  | .respond i _ => ∀ mid, s.pending[i]? = some (mid, .plain) →
      s.wrapper.waiters.slot (Slab.index mid) = none
  | _ => True

def Apart (p p' : UInt64 × Source) : Prop := ∀ r, p.2 = .request r → p'.2 ≠ .request r

/-- A request that has not been answered keeps its own waiter. -/
structure CorrInv (s : LocalState R E B) : Prop where
  reserving : ∀ r q, s.reqs r = some q → q.stage = .reserving →
    s.wrapper.waiters.slot q.key = some ⟨q.kind, r⟩
  pending : ∀ mid r, (mid, .request r) ∈ s.pending → ∃ q, s.reqs r = some q
    ∧ mid = requestMid q.key ∧ q.stage ≠ .reserving
    ∧ s.wrapper.waiters.slot q.key = some ⟨q.kind, r⟩
  apart : s.pending.Pairwise Apart
  taken : ∀ c ∈ s.taken, c.2 = .request c.1
  answered : ∀ a ∈ s.answered, (∀ k w, s.wrapper.waiters.slot k = some w → w.tx ≠ a.1)
    ∧ ∃ q, s.reqs a.1 = some q
      ∧ (s.chans a.1 = .sent (q.kind.reply intoBoxed a.2) ∨ s.chans a.1 = .dropped)

namespace CorrInv

variable {intoBoxed} {s s' : LocalState R E B}

theorem start (limit : UInt64) : CorrInv intoBoxed (LocalState.start limit : LocalState R E B) where
  reserving _ _ h := by simp [LocalState.start] at h
  pending _ _ h := by simp [LocalState.start] at h
  apart := List.Pairwise.nil
  taken _ h := by simp [LocalState.start] at h
  answered _ h := by simp [LocalState.start] at h

theorem correlated (h : CorrInv intoBoxed s) : Correlated intoBoxed s :=
  ⟨h.taken, fun a ha => (h.answered a ha).2⟩

/-- The context plays no part. -/
theorem context (h : CorrInv intoBoxed s) (c : ReceiverContext) (l : Loop) :
    CorrInv intoBoxed { s with wrapper.context := c, loop := l } :=
  ⟨h.reserving, h.pending, h.apart, h.taken, h.answered⟩

theorem plain (h : CorrInv intoBoxed s) (mid : UInt64) (drawn : List UInt64) (c : ReceiverContext) :
    CorrInv intoBoxed { s with
      wrapper.context := c, drawn := drawn, pending := s.pending ++ [(mid, .plain)] } where
  __ := h
  pending m r hm := by
    simp only [List.mem_append, List.mem_singleton, Prod.mk.injEq, reduceCtorEq, and_false,
      or_false] at hm
    exact h.pending m r hm
  apart := by
    refine List.pairwise_append.2 ⟨h.apart, List.pairwise_singleton _ _, ?_⟩
    intro p _ p' hp' r _
    simp only [List.mem_singleton] at hp'
    simp [hp']

/-- A request that starts has a number of its own and a key no live waiter has. -/
theorem request (h : CorrInv intoBoxed s) (hl : LiveInv s) (kind : WaiterKind) {key : Slab.Key}
    (hk : s.wrapper.waiters.slot key = none) :
    CorrInv intoBoxed { s with
      wrapper.waiters := ⟨Function.update s.wrapper.waiters.slot key (some ⟨kind, s.reqCount⟩)⟩
      reqs := Function.update s.reqs s.reqCount (some ⟨kind, key, .reserving⟩)
      reqCount := s.reqCount + 1 } := by
  have hreq : ∀ {r q}, s.reqs r = some q →
      Function.update s.reqs s.reqCount (some ⟨kind, key, .reserving⟩) r = some q := by
    intro r q hq
    rw [Function.update_of_ne (Nat.ne_of_lt (hl.lt_reqCount hq))]
    exact hq
  have hslot : ∀ {k w}, s.wrapper.waiters.slot k = some w →
      Function.update s.wrapper.waiters.slot key (some ⟨kind, s.reqCount⟩) k = some w := by
    intro k w hw
    rw [Function.update_of_ne]
    · exact hw
    · rintro rfl
      rw [hk] at hw
      cases hw
  constructor
  · intro r q hq hst
    simp only [Function.update_apply] at hq
    split_ifs at hq with hr
    · cases hq
      subst hr
      exact Function.update_self ..
    · exact hslot (h.reserving r q hq hst)
  · intro mid r hm
    obtain ⟨q, hq, hmid, hst, hw⟩ := h.pending mid r hm
    exact ⟨q, hreq hq, hmid, hst, hslot hw⟩
  · exact h.apart
  · exact h.taken
  · intro a ha
    obtain ⟨hno, q, hq, hc⟩ := h.answered a ha
    refine ⟨fun k w hw => ?_, q, hreq hq, hc⟩
    simp only [Function.update_apply] at hw
    split_ifs at hw with hkk
    · cases hw
      exact (Nat.ne_of_lt (hl.lt_reqCount hq)).symm
    · exact hno k w hw

/-- A request moves on from its reservation, under its own key. -/
theorem setReq (h : CorrInv intoBoxed s) {r : ℕ} {q y : Req} (hq : s.reqs r = some q)
    (hkey : y.key = q.key) (hkind : y.kind = q.kind) (hy : y.stage ≠ .reserving) :
    CorrInv intoBoxed { s with reqs := Function.update s.reqs r (some y) } := by
  have hreq : ∀ {r' q'}, s.reqs r' = some q' → ∃ q'',
      Function.update s.reqs r (some y) r' = some q'' ∧ q''.key = q'.key ∧ q''.kind = q'.kind
        ∧ (q'.stage ≠ .reserving → q''.stage ≠ .reserving) := by
    intro r' q' hq'
    by_cases hr : r' = r
    · subst hr
      rw [hq] at hq'
      cases hq'
      exact ⟨y, Function.update_self .., hkey, hkind, fun _ => hy⟩
    · exact ⟨q', by rw [Function.update_of_ne hr]; exact hq', rfl, rfl, id⟩
  constructor
  · intro r' q' hq' hst
    simp only [Function.update_apply] at hq'
    split_ifs at hq'
    · cases hq'
      exact absurd hst hy
    · exact h.reserving r' q' hq' hst
  · intro mid r' hm
    obtain ⟨q', hq', hmid, hst, hw⟩ := h.pending mid r' hm
    obtain ⟨q'', hq'', hk, hkind, hst'⟩ := hreq hq'
    exact ⟨q'', hq'', by rw [hk]; exact hmid, hst' hst, by rw [hk, hkind]; exact hw⟩
  · exact h.apart
  · exact h.taken
  · intro a ha
    obtain ⟨hno, q', hq', hc⟩ := h.answered a ha
    obtain ⟨q'', hq'', -, hkind, -⟩ := hreq hq'
    exact ⟨hno, q'', hq'', by rw [hkind]; exact hc⟩

theorem pushRequest (h : CorrInv intoBoxed s) {r : ℕ} {kind : WaiterKind} {key : Slab.Key}
    (hq : s.reqs r = some ⟨kind, key, .reserving⟩) (c : ReceiverContext) :
    CorrInv intoBoxed { s with
      wrapper.context := c
      reqs := Function.update s.reqs r (some ⟨kind, key, .sent⟩)
      pending := s.pending ++ [(requestMid key, .request r)] } := by
  have hwait := h.reserving r _ hq rfl
  have hset := h.setReq (y := ⟨kind, key, .sent⟩) hq rfl rfl (by simp)
  have hnot : ∀ mid, (mid, Source.request r) ∉ s.pending := by
    intro mid hm
    obtain ⟨q', hq', -, hst, -⟩ := h.pending mid r hm
    rw [hq] at hq'
    cases hq'
    exact hst rfl
  refine ⟨hset.reserving, fun mid r' hm => ?_, ?_, hset.taken, hset.answered⟩
  · simp only [List.mem_append, List.mem_singleton, Prod.mk.injEq, Source.request.injEq] at hm
    rcases hm with hm | ⟨rfl, rfl⟩
    · exact hset.pending mid r' hm
    · exact ⟨_, Function.update_self .., rfl, by simp, hwait⟩
  · refine List.pairwise_append.2 ⟨h.apart, List.pairwise_singleton _ _, ?_⟩
    rintro ⟨mid, src⟩ hp p' hp' r' rfl hsrc
    simp only [List.mem_singleton] at hp'
    subst hp'
    cases hsrc
    exact hnot mid hp

theorem cancel (h : CorrInv intoBoxed s) {r : ℕ} {q : Req} (hq : s.reqs r = some q) :
    CorrInv intoBoxed { s with
      reqs := Function.update s.reqs r (some { q with stage := .gone })
      chans := Function.update s.chans r (s.chans r).drop } := by
  have hset := h.setReq (y := { q with stage := .gone }) hq rfl rfl (by simp)
  refine ⟨hset.reserving, hset.pending, hset.apart, hset.taken, fun a ha => ?_⟩
  obtain ⟨hno, q', hq', hc⟩ := hset.answered a ha
  refine ⟨hno, q', hq', ?_⟩
  simp only [Function.update_apply] at hc ⊢
  split_ifs with hr
  · subst hr
    rcases hc with hc | hc <;> simp [hc, Oneshot.drop]
  · exact hc

/-- A message that no waiter waits for is only struck off. -/
theorem strike (h : CorrInv intoBoxed s) (i : ℕ) :
    CorrInv intoBoxed { s with pending := s.pending.eraseIdx i } where
  __ := h
  pending mid r hm := h.pending mid r (List.mem_of_mem_eraseIdx hm)
  apart := h.apart.sublist (List.eraseIdx_sublist ..)

theorem apart_of_getElem? (h : CorrInv intoBoxed s) {i : ℕ} {mid : UInt64} {r : ℕ}
    (hp : s.pending[i]? = some (mid, .request r)) {mid' : UInt64} {r' : ℕ}
    (hm : (mid', Source.request r') ∈ s.pending.eraseIdx i) : r' ≠ r := by
  rintro rfl
  obtain ⟨hi, hp⟩ := List.getElem?_eq_some_iff.1 hp
  obtain ⟨j, hj, hne, hm⟩ := List.mem_eraseIdx_iff_getElem.1 hm
  have hpw := List.pairwise_iff_getElem.1 h.apart
  rcases Nat.lt_or_gt_of_ne hne with hlt | hlt
  · exact hpw j i hj hi hlt r' (by rw [hm]) (by rw [hp])
  · exact hpw i j hi hj hlt r' (by rw [hp]) (by rw [hm])

/-- A request's own `Response` takes the waiter it inserted and settles its channel. -/
theorem own (h : CorrInv intoBoxed s) (hl : LiveInv s) {i : ℕ} {mid : UInt64} {r : ℕ}
    (hp : s.pending[i]? = some (mid, .request r)) {res : Except (Error Unit E) R} {q : Req}
    (hq : s.reqs r = some q) {chans : Channels R E B} (hother : ∀ r' ≠ r, chans r' = s.chans r')
    (hown : chans r = .sent (q.kind.reply intoBoxed res) ∨ chans r = .dropped) :
    CorrInv intoBoxed { s with
      wrapper.waiters := (s.wrapper.waiters.take mid).2
      chans := chans
      pending := s.pending.eraseIdx i
      taken := s.taken ++ [(r, .request r)]
      answered := s.answered ++ [(r, res)] } := by
  obtain ⟨q', hq', hmid, hst, hw⟩ := h.pending mid r (List.mem_of_getElem? hp)
  rw [hq] at hq'
  cases hq'
  have hidx : Slab.index mid = q.key := by rw [hmid, index_requestMid]
  have hkey : ∀ {k w}, s.wrapper.waiters.slot k = some w → w.tx ≠ r → k ≠ q.key := by
    rintro k w hk hne rfl
    rw [hw] at hk
    cases hk
    exact hne rfl
  have hleft : ∀ {k w}, (s.wrapper.waiters.take mid).2.slot k = some w →
      s.wrapper.waiters.slot k = some w ∧ w.tx ≠ r := by
    intro k w hk
    rw [Slab.slot_take, hidx] at hk
    split_ifs at hk with hkk
    refine ⟨hk, ?_⟩
    rintro rfl
    exact hkk (hl.key_eq hk hq)
  have hstay : ∀ {k w}, s.wrapper.waiters.slot k = some w → w.tx ≠ r →
      (s.wrapper.waiters.take mid).2.slot k = some w := by
    intro k w hk hne
    rw [Slab.slot_take, hidx, if_neg (hkey hk hne)]
    exact hk
  constructor
  · intro r' q' hq' hst'
    refine hstay (h.reserving r' q' hq' hst') ?_
    rintro rfl
    dsimp only at hq'
    rw [hq] at hq'
    cases hq'
    exact hst hst'
  · intro mid' r' hm
    obtain ⟨q', hq', hmid', hst', hw'⟩ := h.pending mid' r' (List.mem_of_mem_eraseIdx hm)
    exact ⟨q', hq', hmid', hst', hstay hw' (h.apart_of_getElem? hp hm)⟩
  · exact h.apart.sublist (List.eraseIdx_sublist ..)
  · intro c hc
    simp only [List.mem_append, List.mem_singleton] at hc
    rcases hc with hc | rfl
    · exact h.taken c hc
    · rfl
  · intro a ha
    simp only [List.mem_append, List.mem_singleton] at ha
    rcases ha with ha | rfl
    · obtain ⟨hno, q', hq', hc⟩ := h.answered a ha
      refine ⟨fun k w hk => hno k w (hleft hk).1, q', hq', ?_⟩
      dsimp only
      rw [hother _ (hno _ _ hw).symm]
      exact hc
    · exact ⟨fun k w hk => (hleft hk).2, q, hq, hown⟩

/-- The loop's turn on a `Response` keeps the invariant if a plain one finds no live waiter. -/
theorem respond (h : CorrInv intoBoxed s) (hl : LiveInv s) {i : ℕ} {mid : UInt64} {src : Source}
    (hp : s.pending[i]? = some (mid, src)) (res : Except (Error Unit E) R)
    (hspare : src = .plain → s.wrapper.waiters.slot (Slab.index mid) = none) :
    CorrInv intoBoxed { (s.log mid src res).handle intoBoxed (.response mid res) with
      pending := s.pending.eraseIdx i } := by
  cases src with
  | plain =>
    have hfree := hspare rfl
    have hlog : s.log mid .plain res = s := by
      simp [LocalState.log, Slab.take_of_slot_none hfree]
    obtain ⟨c, hc⟩ := handle_response_free intoBoxed res hfree
    rw [hlog, hc]
    exact (h.strike i).context c _
  | request r =>
    obtain ⟨q, hq, hmid, -, hw⟩ := h.pending mid r (List.mem_of_getElem? hp)
    have hslot : s.wrapper.waiters.slot (Slab.index mid) = some ⟨q.kind, r⟩ := by
      rw [hmid, index_requestMid]
      exact hw
    have hlog : s.log mid (.request r) res = { s with
        taken := s.taken ++ [(r, .request r)], answered := s.answered ++ [(r, res)] } := by
      simp [LocalState.log, Slab.take, hslot]
    cases hch : s.chans r with
    | waiting =>
      obtain ⟨c, hc⟩ := handle_response_waiting intoBoxed (s := s.log mid (.request r) res) res
        hslot hch
      rw [hc, hlog]
      exact (h.own hl hp hq (fun r' hr' => Function.update_of_ne hr' _ _)
        (.inl (Function.update_self ..))).context c _
    | dropped =>
      obtain ⟨c, hc⟩ := handle_response_dropped intoBoxed (s := s.log mid (.request r) res) res
        hslot hch
      rw [hc, hlog]
      exact (h.own hl hp hq (fun _ _ => rfl) (.inr hch)).context c _
    | sent a => exact absurd hch ((hl.live _ _ hslot).2 a)

end CorrInv

theorem corrInv_step {limit : UInt64} {s s' : LocalState R E B} {l : LocalLabel R E}
    (h : CorrInv intoBoxed s) (hl : LiveInv s)
    (hs : (localReceiver intoBoxed limit).step s l = some s') (hC : SpareMid s l) :
    CorrInv intoBoxed s' := by
  cases localStep intoBoxed hs with
  | fetchId => exact ⟨h.reserving, h.pending, h.apart, h.taken, h.answered⟩
  | push mid force c => exact h.plain mid _ c
  | request kind key hk => exact h.request hl kind hk
  | pushRequest r kind key c hq => exact h.pushRequest hq c
  | cancel r q hq => exact h.cancel hq
  | respond i mid src res hrun hp => exact h.respond hl hp res fun hsrc => hC mid (hsrc ▸ hp)
  | event ev c => exact h.context c _

/-- A plain `Response` handled under a live waiter's key is logged against that waiter. -/
theorem spareMid_of_correlated {limit : UInt64} {s s' : LocalState R E B} {l : LocalLabel R E}
    (hs : (localReceiver intoBoxed limit).step s l = some s') (h : Correlated intoBoxed s') :
    SpareMid s l := by
  cases localStep intoBoxed hs with
  | respond i mid src res hrun hp =>
    intro mid' hp'
    rw [hp] at hp'
    cases hp'
    by_contra hlive
    obtain ⟨w, hw⟩ := Option.ne_none_iff_exists'.1 hlive
    have htake : (s.wrapper.waiters.take mid).1 = some w := hw
    have := h.1 (w.tx, .plain) (by simp [LocalState.handle, LocalState.log, htake])
    cases this
  | _ => trivial

/-- The runs in which every waiter is completed by its own request's `Response` are exactly those
in which no plain `Response` is handled while its mid addresses a live waiter. -/
theorem correlated_iff_spareMid (limit : UInt64) (ls : List (LocalLabel R E)) :
    (localReceiver intoBoxed limit).Always (Correlated intoBoxed) ls
      ↔ (localReceiver intoBoxed limit).Throughout SpareMid ls :=
  Lts.always_iff_throughout (J := fun s => LiveInv s ∧ CorrInv intoBoxed s)
    ⟨.start limit, .start limit⟩ (fun _ h => h.2.correlated)
    (fun _ _ _ h hs hC => ⟨liveInv_step intoBoxed h.1 hs, corrInv_step intoBoxed h.2 h.1 hs hC⟩)
    (fun _ _ _ _ hs h => spareMid_of_correlated intoBoxed hs h) ls

/-- The first plain send has mid 1, and so has the key the table gives a request before its
`Response` comes: the `Response` of the send takes the waiter of the request. -/
theorem plain_response_takes_waiter :
    ¬ (localReceiver (id : ℕ → ℕ) 16 : Lts _ (LocalLabel ℕ GenericError)).Always (Correlated id)
      [.fetchId, .push 1 false, .request .withoutErrorType 1, .pushRequest 0,
        .respond 0 (.ok 7)] := by
  intro h
  obtain ⟨htaken, -⟩ := h.last rfl
  have := htaken (0, .plain) (List.mem_singleton.2 rfl)
  cases this

end MessageBus
