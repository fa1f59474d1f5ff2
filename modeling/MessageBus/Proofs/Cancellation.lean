import MessageBus.Proofs.Waiters

/-!
# Cancelled requests and the event loop

A caller that drops its future leaves its waiter in the table with nobody at the other end. The
loop's send to it fails, and the `unwrap` of `response` takes the loop down, so the loop lives as
long as no `Response` finds such a waiter.
-/

namespace MessageBus

variable {R E B : Type} [StdSyncSendError E] (intoBoxed : R → B)

/-- A `Response` is handled only while no waiter it addresses has lost its receiving half. -/
def Heard (s : LocalState R E B) : LocalLabel R E → Prop
  | .respond i _ => ∀ p w, s.pending[i]? = some p →
      s.wrapper.waiters.slot (Slab.index p.1) = some w → s.chans w.tx ≠ .dropped
  | _ => True

/-- What each turn leaves of the loop, whichever of the four kinds the waiter is. -/
theorem loop_handle_response {s : LocalState R E B} (h : LiveInv s) (mid : UInt64)
    (res : Except (Error Unit E) R) :
    (s.handle intoBoxed (.response mid res)).loop = .running
      ↔ ∀ w, s.wrapper.waiters.slot (Slab.index mid) = some w → s.chans w.tx ≠ .dropped := by
  rcases hs : s.wrapper.waiters.slot (Slab.index mid) with _ | w
  · obtain ⟨c, hc⟩ := handle_response_free intoBoxed res hs
    simp [hc]
  · cases hch : s.chans w.tx with
    | waiting =>
      obtain ⟨c, hc⟩ := handle_response_waiting intoBoxed res hs hch
      simp [hc, hch]
    | dropped =>
      obtain ⟨c, hc⟩ := handle_response_dropped intoBoxed res hs hch
      simp [hc, hch]
    | sent a => exact absurd hch ((h.live _ _ hs).2 a)

theorem running_step {limit : UInt64} {s s' : LocalState R E B} {l : LocalLabel R E}
    (h : LiveInv s) (hrun : s.loop = .running)
    (hs : (localReceiver intoBoxed limit).step s l = some s') :
    s'.loop = .running ↔ Heard s l := by
  cases localStep intoBoxed hs with
  | respond i mid src res _ hp =>
    have hlog : LiveInv (s.log mid src res) := ⟨h.freshReq, h.freshChan, h.live⟩
    have hloop := loop_handle_response intoBoxed hlog mid res
    constructor
    · intro hr p w hp' hw
      rw [hp] at hp'
      cases hp'
      exact hloop.1 hr w hw
    · exact fun hC => hloop.2 fun w hw => hC _ w hp hw
  | _ => simp [Heard, hrun]

/-- An aborted loop answers nobody again. -/
theorem aborted_step {limit : UInt64} {s s' : LocalState R E B} {l : LocalLabel R E}
    (h : s.loop = .aborted) (hs : (localReceiver intoBoxed limit).step s l = some s') :
    s'.loop = .aborted ∧ s'.answered = s.answered := by
  cases localStep intoBoxed hs with
  | respond i mid src res hrun =>
    rw [h] at hrun
    cases hrun
  | event ev c hrun =>
    rw [h] at hrun
    cases hrun
  | _ => exact ⟨h, rfl⟩

/-- The runs that keep the loop alive are exactly those in which no `Response` is handled while
its mid addresses a waiter whose receiving half is gone. -/
theorem running_iff_heard (limit : UInt64) (ls : List (LocalLabel R E)) :
    (localReceiver intoBoxed limit).Always (fun s => s.loop = .running) ls
      ↔ (localReceiver intoBoxed limit).Throughout Heard ls :=
  Lts.always_iff_throughout (J := fun s => LiveInv s ∧ s.loop = .running)
    ⟨.start limit, rfl⟩ (fun _ h => h.2)
    (fun _ _ _ h hs hC => ⟨liveInv_step intoBoxed h.1 hs, (running_step intoBoxed h.1 h.2 hs).2 hC⟩)
    (fun _ _ _ h hs hP => (running_step intoBoxed h.1 h.2 hs).1 hP) ls

/-- A request dropped after its message is on the queue: its `Response` kills the loop. -/
theorem cancelled_request_aborts :
    ¬ (localReceiver (id : ℕ → ℕ) 16 : Lts _ (LocalLabel ℕ GenericError)).Always
      (fun s => s.loop = .running)
      [.request .withoutErrorType 0, .pushRequest 0, .cancel 0, .respond 0 (.ok 7)] := by
  intro h
  have := h.last rfl
  cases this

end MessageBus
