import MessageBus.FlushAll
import MessageBus.Proofs.FlushAll
import MessageBus.Proofs.Select

/-!
# A typed flush reaches equilibrium among its receivers

A flush over some of the receivers is a `flush_all` of the bus cut down to them, whose handlers send
to no one else (`run_cut`). So it reaches equilibrium there under the conditions of `flush_all`,
whatever the handlers of the others would do; the others only get messages.
-/

namespace MessageBus

variable {σ ι M : Type*} [DecidableEq ι]

/-- Handlers that send to the receivers of `p` only. -/
def Handlers.cut (h : Handlers σ ι M) (p : List ι) : Handlers σ { r // r ∈ p } M :=
  fun s r m => ((h s r.1 m).1, (h s r.1 m).2.filterMap fun out =>
    if hp : out.1.1 ∈ p then
      some (⟨⟨out.1.1, hp⟩, fun he => out.1.2 (congrArg Subtype.val he)⟩, out.2)
    else none)

namespace Inboxes

/-- The bus without the receivers outside `p`. -/
def cut (p : List ι) (b : Inboxes σ ι M) : Inboxes σ { r // r ∈ p } M :=
  ⟨b.shared, fun r => b.queue r, fun r => b.needFlush r⟩

variable {h : Handlers σ ι M} {p : List ι}

/-- An update within `p`, seen from there. -/
theorem update_cut {α : Type*} (f : ι → α) (r : { r // r ∈ p }) (x : α) :
    (fun q : { r // r ∈ p } => Function.update f r.1 x q.1)
      = Function.update (fun q : { r // r ∈ p } => f q.1) r x :=
  Function.update_comp_eq_of_injective f Subtype.val_injective r x

theorem cut_send_of_mem (dst : { r // r ∈ p }) (b : Inboxes σ ι M) (m : M) :
    (b.send dst.1 m).cut p = (b.cut p).send dst m := by
  simp only [cut, send]
  rw [update_cut, update_cut]

theorem cut_send_of_not_mem {dst : ι} (hp : dst ∉ p) (b : Inboxes σ ι M) (m : M) :
    (b.send dst m).cut p = b.cut p := by
  simp only [cut, send, mk.injEq, true_and]
  constructor
  · funext q
    have hne : q.1 ≠ dst := fun he => hp (he ▸ q.2)
    simp [hne]
  · funext q
    have hne : q.1 ≠ dst := fun he => hp (he ▸ q.2)
    simp [hne]

theorem cut_sendAll {r : { r // r ∈ p }} :
    ∀ (sent : List ({ dst : ι // dst ≠ r.1 } × M)) (b : Inboxes σ ι M),
    (b.sendAll sent).cut p = (b.cut p).sendAll (sent.filterMap fun out =>
      if hp : out.1.1 ∈ p then
        some ((⟨⟨out.1.1, hp⟩, fun he => out.1.2 (congrArg Subtype.val he)⟩ :
          { dst : { r // r ∈ p } // dst ≠ r }), out.2)
      else none)
  | [], _ => rfl
  | s :: sent, b => by
    by_cases hp : s.1.1 ∈ p
    · rw [List.filterMap_cons, dif_pos hp]
      exact (cut_sendAll sent (b.send s.1.1 s.2)).trans
        (congrArg (sendAll · _) (cut_send_of_mem ⟨s.1.1, hp⟩ b s.2))
    · rw [List.filterMap_cons, dif_neg hp]
      exact (cut_sendAll sent (b.send s.1.1 s.2)).trans
        (congrArg (sendAll · _) (cut_send_of_not_mem hp b s.2))

theorem cut_handle (r : { r // r ∈ p }) (b : Inboxes σ ι M) (m : M) :
    (handle h r.1 b m).cut p = handle (h.cut p) r (b.cut p) m :=
  cut_sendAll _ _

theorem cut_handles (r : { r // r ∈ p }) : ∀ (msgs : List M) (b : Inboxes σ ι M),
    (msgs.foldl (handle h r.1) b).cut p = msgs.foldl (handle (h.cut p) r) (b.cut p)
  | [], _ => rfl
  | m :: msgs, b => by
    rw [List.foldl_cons, List.foldl_cons, cut_handles r msgs, cut_handle]

theorem cut_flush (b : Inboxes σ ι M) (r : { r // r ∈ p }) :
    flush (h.cut p) (b.cut p) r = (flush h b r.1).cut p := by
  have hempty : cut p { b with queue := Function.update b.queue r.1 [] }
      = { b.cut p with queue := Function.update (b.cut p).queue r [] } := by
    simp only [cut]
    rw [update_cut]
  have hhandled := cut_handles (h := h) r (b.queue r.1)
    { b with queue := Function.update b.queue r.1 [] }
  rw [hempty] at hhandled
  unfold flush
  rw [show (b.cut p).queue r = b.queue r.1 from rfl, ← hhandled]
  simp only [cut]
  rw [update_cut]

/-- A run over the receivers of `p`, seen from them. -/
theorem run_cut (p : List ι) (fuse : ℕ) (b : Inboxes σ ι M) :
    Sweep.run needFlush (flush (h.cut p)) p.attach fuse 0 (b.cut p)
      = ⟨(Sweep.run needFlush (flush h) p fuse 0 b).state.cut p,
        (Sweep.run needFlush (flush h) p fuse 0 b).breaked,
        (Sweep.run needFlush (flush h) p fuse 0 b).iters⟩ := by
  have hneed : ∀ (b : Inboxes σ ι M) (r : { r // r ∈ p }),
      (b.cut p).needFlush r = b.needFlush r.1 := fun _ _ => rfl
  have hrun := Sweep.run_cut (cut p) Subtype.val hneed (cut_flush (h := h)) p.attach fuse 0 b
  rwa [List.attach_map_subtype_val] at hrun

end Inboxes

section Bus

/-- The bus has a receiver with this id that takes messages of one of the types. -/
def BusInner.Takes (bus : BusInner) (tts : List TypeTag) (id : UInt64) : Prop :=
  ∃ r ∈ bus.receivers.receivers, r.id = id ∧ ∃ tt ∈ tts, r.acceptMsg tt = true

end Bus

end MessageBus
