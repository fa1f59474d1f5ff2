import MessageBus.Receiver

/-!
# The waiter table of a local receiver

What one turn of the loop does with a `Response` (`handle_response_free`, `_waiting`, `_dropped`),
and what every reachable state keeps whatever the order of its steps (`LiveInv`): a live waiter
sits under the key of the one request that inserted it, and nothing was sent to it yet.
-/

namespace MessageBus

variable {R E B : Type} [StdSyncSendError E] (intoBoxed : R → B)

section Turn

omit [StdSyncSendError E] in
theorem reserve_some {s s' : LocalState R E B} {force : Bool} (h : s.reserve force = some s') :
    ∃ c, s' = { s with wrapper.context := c } := by
  unfold LocalState.reserve at h
  split_ifs at h
  · exact ⟨_, by simpa using h.symm⟩
  · obtain ⟨c, -, rfl⟩ := Option.map_eq_some_iff.1 h
    exact ⟨c, rfl⟩

/-- Everything a step can do, a case for each label. -/
inductive LocalStep (s : LocalState R E B) : LocalLabel R E → LocalState R E B → Prop
  | fetchId : LocalStep s .fetchId
      { s with idCounter := s.idCounter + 1, drawn := s.drawn ++ [s.idCounter] }
  | push (mid : UInt64) (force : Bool) (c : ReceiverContext) : mid ∈ s.drawn →
      LocalStep s (.push mid force) { s with
        wrapper.context := c
        drawn := s.drawn.erase mid
        pending := s.pending ++ [(mid, .plain)] }
  | request (kind : WaiterKind) (key : Slab.Key) : s.wrapper.waiters.slot key = none →
      LocalStep s (.request kind key) { s with
        wrapper.waiters :=
          ⟨Function.update s.wrapper.waiters.slot key (some ⟨kind, s.reqCount⟩)⟩
        reqs := Function.update s.reqs s.reqCount (some ⟨kind, key, .reserving⟩)
        reqCount := s.reqCount + 1 }
  | pushRequest (r : ℕ) (kind : WaiterKind) (key : Slab.Key) (c : ReceiverContext) :
      s.reqs r = some ⟨kind, key, .reserving⟩ →
      LocalStep s (.pushRequest r) { s with
        wrapper.context := c
        reqs := Function.update s.reqs r (some ⟨kind, key, .sent⟩)
        pending := s.pending ++ [(requestMid key, .request r)] }
  | cancel (r : ℕ) (q : Req) : s.reqs r = some q →
      LocalStep s (.cancel r) { s with
        reqs := Function.update s.reqs r (some { q with stage := .gone })
        chans := Function.update s.chans r (s.chans r).drop }
  | respond (i : ℕ) (mid : UInt64) (src : Source) (res : Except (Error Unit E) R) :
      s.loop = .running → s.pending[i]? = some (mid, src) →
      LocalStep s (.respond i res)
        { (s.log mid src res).handle intoBoxed (.response mid res) with
          pending := s.pending.eraseIdx i }
  | event (ev : Event R E) (c : ReceiverContext) : s.loop = .running →
      LocalStep s (.event ev) { s with wrapper.context := c, loop := .running }

theorem handle_response_free {s : LocalState R E B} {mid : UInt64} (res : Except (Error Unit E) R)
    (h : s.wrapper.waiters.slot (Slab.index mid) = none) :
    ∃ c, s.handle intoBoxed (.response mid res)
      = { s with wrapper.context := c, loop := .running } := by
  refine ⟨{ s.wrapper.context with processing := s.wrapper.context.processing - 1 }, ?_⟩
  simp only [LocalState.handle, handleEvent, response, Slab.take_of_slot_none h]

theorem handle_response_waiting {s : LocalState R E B} {mid : UInt64}
    (res : Except (Error Unit E) R) {w : Waiter}
    (h : s.wrapper.waiters.slot (Slab.index mid) = some w)
    (hc : s.chans w.tx = .waiting) :
    ∃ c, s.handle intoBoxed (.response mid res)
      = { s with
        wrapper := ⟨(s.wrapper.waiters.take mid).2, c⟩
        chans := Function.update s.chans w.tx (.sent (w.kind.reply intoBoxed res))
        loop := .running } := by
  refine ⟨{ s.wrapper.context with processing := s.wrapper.context.processing - 1 }, ?_⟩
  simp only [LocalState.handle, handleEvent, response, Slab.take, h, hc, Oneshot.send]

/-- The send fails, and its `unwrap` takes the loop down. -/
theorem handle_response_dropped {s : LocalState R E B} {mid : UInt64}
    (res : Except (Error Unit E) R) {w : Waiter}
    (h : s.wrapper.waiters.slot (Slab.index mid) = some w)
    (hc : s.chans w.tx = .dropped) :
    ∃ c, s.handle intoBoxed (.response mid res)
      = { s with wrapper := ⟨(s.wrapper.waiters.take mid).2, c⟩, loop := .aborted } := by
  refine ⟨{ s.wrapper.context with processing := s.wrapper.context.processing - 1 }, ?_⟩
  simp only [LocalState.handle, handleEvent, response, Slab.take, h, hc, Oneshot.send]

/-- An event of the poller other than a `Response` leaves the waiters and the channels alone. -/
theorem handle_fromPoller (s : LocalState R E B) {ev : Event R E} (h : ev.fromPoller = true) :
    ∃ c, s.handle intoBoxed ev = { s with wrapper.context := c, loop := .running } := by
  cases ev <;> simp only [Event.fromPoller, Bool.false_eq_true] at h <;> exact ⟨_, rfl⟩

theorem localStep {limit : UInt64} {s s' : LocalState R E B} {l : LocalLabel R E}
    (hs : (localReceiver intoBoxed limit).step s l = some s') : LocalStep intoBoxed s l s' := by
  change s.step intoBoxed l = some s' at hs
  cases l with
  | fetchId =>
    cases hs
    exact .fetchId
  | push mid force =>
    simp only [LocalState.step] at hs
    split_ifs at hs with hmid
    obtain ⟨t, ht, rfl⟩ := Option.map_eq_some_iff.1 hs
    obtain ⟨c, rfl⟩ := reserve_some ht
    exact .push mid force c hmid
  | request kind key =>
    obtain ⟨waiters, hw, rfl⟩ := Option.map_eq_some_iff.1 hs
    obtain ⟨hk, rfl⟩ := Slab.insert_eq_some.1 hw
    exact .request kind key hk
  | pushRequest r =>
    simp only [LocalState.step] at hs
    split at hs
    · rename_i kind key hq
      obtain ⟨t, ht, rfl⟩ := Option.map_eq_some_iff.1 hs
      obtain ⟨c, rfl⟩ := reserve_some ht
      exact .pushRequest r kind key c hq
    · cases hs
  | cancel r =>
    obtain ⟨q, hq, rfl⟩ := Option.map_eq_some_iff.1 hs
    exact .cancel r q hq
  | respond i res =>
    simp only [LocalState.step] at hs
    split_ifs at hs with hrun
    obtain ⟨⟨mid, src⟩, hp, rfl⟩ := Option.map_eq_some_iff.1 hs
    exact .respond i mid src res hrun hp
  | event ev =>
    simp only [LocalState.step] at hs
    split_ifs at hs with hr
    cases hs
    obtain ⟨c, hc⟩ := handle_fromPoller intoBoxed s hr.2
    rw [hc]
    exact .event ev c hr.1

end Turn

/-- A live waiter belongs to the request that inserted it, and its channel is unused. -/
structure LiveInv (s : LocalState R E B) : Prop where
  freshReq : ∀ r, s.reqCount ≤ r → s.reqs r = none
  freshChan : ∀ r, s.reqCount ≤ r → s.chans r = .waiting
  live : ∀ k w, s.wrapper.waiters.slot k = some w →
    (∃ q, s.reqs w.tx = some q ∧ q.key = k ∧ q.kind = w.kind) ∧ ∀ a, s.chans w.tx ≠ .sent a

namespace LiveInv

variable {s : LocalState R E B}

omit [StdSyncSendError E]

theorem start (limit : UInt64) : LiveInv (LocalState.start limit : LocalState R E B) where
  freshReq _ _ := rfl
  freshChan _ _ := rfl
  live _ _ h := by simp [LocalState.start] at h

theorem lt_reqCount (h : LiveInv s) {r : ℕ} {q : Req} (hq : s.reqs r = some q) :
    r < s.reqCount := by
  by_contra hge
  rw [h.freshReq r (by omega)] at hq
  cases hq

/-- A waiter is found under its request's key only. -/
theorem key_eq (h : LiveInv s) {k : Slab.Key} {w : Waiter} {q : Req}
    (hw : s.wrapper.waiters.slot k = some w) (hq : s.reqs w.tx = some q) : k = q.key := by
  obtain ⟨⟨q', hq', hk, -⟩, -⟩ := h.live k w hw
  rw [hq] at hq'
  cases hq'
  exact hk.symm

theorem request (h : LiveInv s) (kind : WaiterKind) (key : Slab.Key) :
    LiveInv { s with
      wrapper.waiters := ⟨Function.update s.wrapper.waiters.slot key (some ⟨kind, s.reqCount⟩)⟩
      reqs := Function.update s.reqs s.reqCount (some ⟨kind, key, .reserving⟩)
      reqCount := s.reqCount + 1 } where
  freshReq r hr := by
    dsimp only at hr ⊢
    rw [Function.update_of_ne (by omega)]
    exact h.freshReq r (by omega)
  freshChan r hr := h.freshChan r (Nat.le_of_succ_le hr)
  live k w hw := by
    simp only [Function.update_apply] at hw
    split_ifs at hw with hkk
    · cases hw
      refine ⟨⟨_, Function.update_self .., hkk.symm, rfl⟩, fun a ha => ?_⟩
      dsimp only at ha
      rw [h.freshChan s.reqCount (Nat.le_refl _)] at ha
      cases ha
    · obtain ⟨⟨q, hq, hq'⟩, ha⟩ := h.live k w hw
      refine ⟨⟨q, ?_, hq'⟩, ha⟩
      dsimp only
      rw [Function.update_of_ne (Nat.ne_of_lt (h.lt_reqCount hq))]
      exact hq

/-- A request's stage plays no part. -/
theorem restage (h : LiveInv s) {r : ℕ} {q : Req} (hq : s.reqs r = some q) (stage : Stage) :
    LiveInv { s with reqs := Function.update s.reqs r (some { q with stage := stage }) } where
  freshReq r' hr' := by
    have := h.lt_reqCount hq
    dsimp only at hr' ⊢
    rw [Function.update_of_ne (by omega)]
    exact h.freshReq r' hr'
  freshChan := h.freshChan
  live k w hw := by
    obtain ⟨⟨q', hq', hk, hkind⟩, ha⟩ := h.live k w hw
    refine ⟨?_, ha⟩
    dsimp only
    by_cases hr : w.tx = r
    · rw [hr, hq] at hq'
      cases hq'
      refine ⟨{ q with stage := stage }, ?_, hk, hkind⟩
      rw [hr]
      exact Function.update_self ..
    · exact ⟨q', by rw [Function.update_of_ne hr]; exact hq', hk, hkind⟩

theorem drop (h : LiveInv s) {r : ℕ} {q : Req} (hq : s.reqs r = some q) :
    LiveInv { s with chans := Function.update s.chans r (s.chans r).drop } where
  freshReq := h.freshReq
  freshChan r' hr' := by
    have := h.lt_reqCount hq
    dsimp only at hr' ⊢
    rw [Function.update_of_ne (by omega)]
    exact h.freshChan r' hr'
  live k w hw := by
    obtain ⟨hq', ha⟩ := h.live k w hw
    refine ⟨hq', fun a hs => ?_⟩
    simp only [Function.update_apply] at hs
    split_ifs at hs with hr
    · exact ha a (hr ▸ Oneshot.drop_eq_sent.1 hs)
    · exact ha a hs

/-- A turn that takes a waiter touches no other request's channel. -/
theorem take (h : LiveInv s) {mid : UInt64} {w : Waiter}
    (hw : s.wrapper.waiters.slot (Slab.index mid) = some w) (chans : Channels R E B)
    (hother : ∀ r ≠ w.tx, chans r = s.chans r) :
    LiveInv { s with wrapper.waiters := (s.wrapper.waiters.take mid).2, chans := chans } := by
  obtain ⟨⟨q, hq, hkey, -⟩, -⟩ := h.live _ _ hw
  refine ⟨h.freshReq, fun r hr => ?_, fun k w' hk => ?_⟩
  · have := h.lt_reqCount hq
    dsimp only at hr ⊢
    rw [hother r (by omega)]
    exact h.freshChan r hr
  · rw [Slab.slot_take] at hk
    split_ifs at hk with hkk
    have hne : w'.tx ≠ w.tx := by
      intro heq
      exact hkk ((h.key_eq hk (heq ▸ hq)).trans hkey)
    dsimp only
    rw [hother _ hne]
    exact h.live k w' hk

end LiveInv

/-- The loop's turn on any `Response`. -/
theorem LiveInv.handle_response {s : LocalState R E B} (h : LiveInv s) (mid : UInt64)
    (res : Except (Error Unit E) R) : LiveInv (s.handle intoBoxed (.response mid res)) := by
  rcases hs : s.wrapper.waiters.slot (Slab.index mid) with _ | w
  · obtain ⟨c, hc⟩ := handle_response_free intoBoxed res hs
    rw [hc]
    exact ⟨h.freshReq, h.freshChan, h.live⟩
  · cases hch : s.chans w.tx with
    | waiting =>
      obtain ⟨c, hc⟩ := handle_response_waiting intoBoxed res hs hch
      have := h.take hs (Function.update s.chans w.tx (.sent (w.kind.reply intoBoxed res)))
        fun r hr => Function.update_of_ne hr _ _
      rw [hc]
      exact ⟨this.freshReq, this.freshChan, this.live⟩
    | dropped =>
      obtain ⟨c, hc⟩ := handle_response_dropped intoBoxed res hs hch
      have := h.take hs s.chans fun _ _ => rfl
      rw [hc]
      exact ⟨this.freshReq, this.freshChan, this.live⟩
    | sent a => exact absurd hch ((h.live _ _ hs).2 a)

theorem liveInv_step {limit : UInt64} {s s' : LocalState R E B} {l : LocalLabel R E}
    (h : LiveInv s) (hs : (localReceiver intoBoxed limit).step s l = some s') : LiveInv s' := by
  cases localStep intoBoxed hs with
  | fetchId => exact ⟨h.freshReq, h.freshChan, h.live⟩
  | push mid force c => exact ⟨h.freshReq, h.freshChan, h.live⟩
  | request kind key => exact h.request kind key
  | pushRequest r kind key c hq =>
    have := h.restage hq .sent
    exact ⟨this.freshReq, this.freshChan, this.live⟩
  | cancel r q hq => exact (h.drop hq).restage hq .gone
  | respond i mid src res =>
    have hlog : LiveInv (s.log mid src res) := ⟨h.freshReq, h.freshChan, h.live⟩
    have := hlog.handle_response intoBoxed mid res
    exact ⟨this.freshReq, this.freshChan, this.live⟩
  | event ev c => exact ⟨h.freshReq, h.freshChan, h.live⟩

end MessageBus
