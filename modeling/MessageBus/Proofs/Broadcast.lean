import MessageBus.Bus
import MessageBus.Proofs.CallSelect
import MessageBus.Proofs.Link
import Mathlib.Data.List.Perm.Basic
import Mathlib.Data.List.TakeWhile

/-!
# Whom the broadcasts address

The typed broadcasts take the receivers the index lists for a tag as they are; `send_boxed` filters
them by what they accept and by the options. So all four agree exactly where the filter drops none.
-/

namespace MessageBus

variable {S : Type} [CloneMessage S]

/-- With room everywhere the four hand one copy each to the receivers of one set, and all of these
pass the options. -/
def SameReceivers (s : ReceiverSet) (msg : S) (options : SendOptions) : Prop :=
  ∃ rs : List Receiver, (rs.map (·.id)).Nodup ∧ (∀ r ∈ rs, options.passes r.id = true)
    ∧ ∀ out ∈ (BusInner.new s).broadcasts (fun _ => true) msg options,
      out.done = .returned (.ok ()) ∧ out.handed.Perm (rs.map fun r => (r, msg))

theorem mem_send {s : ReceiverSet} {tt : TypeTag} {r : Receiver} :
    r ∈ CallKind.send.select (.new s) tt ↔ r ∈ s.receivers ∧ ∃ ty ∈ r.iterTypes, ty.1 = tt := by
  unfold CallKind.select
  dsimp only
  rw [mem_lookup]
  simp only [mem_queries_iff]

theorem nodup_send (s : ReceiverSet) (tt : TypeTag) :
    ((CallKind.send.select (.new s) tt).map (·.id)).Nodup := by
  unfold CallKind.select
  dsimp only
  rw [lookup_new]
  exact Index.nodup_build _ _

/-- The last in turn is the first the selection gave. -/
theorem perm_sendBoxed (b : BusInner) (tt : TypeTag) (options : SendOptions) :
    ((CallKind.sendBoxed options).select b tt).Perm
      (b.selectReceivers tt options none none false) := by
  unfold CallKind.select
  dsimp only
  split
  · rename_i h
    rw [h]
  · rename_i first iter h
    rw [h]
    exact List.perm_append_singleton first iter

theorem mem_boxed {s : ReceiverSet} {tt : TypeTag} {options : SendOptions} {r : Receiver} :
    r ∈ (CallKind.sendBoxed options).select (.new s) tt
      ↔ r ∈ s.receivers ∧ r.acceptMsg tt = true ∧ options.passes r.id = true := by
  rw [(perm_sendBoxed _ _ _).mem_iff]
  exact mem_selectReceivers s queries_of_acceptMsg

theorem nodup_boxed (s : ReceiverSet) (tt : TypeTag) (options : SendOptions) :
    (((CallKind.sendBoxed options).select (.new s) tt).map (·.id)).Nodup :=
  ((perm_sendBoxed _ _ _).map _).nodup_iff.2 (nodup_selectReceivers s tt options none none false)

omit [CloneMessage S] in
theorem sendEach_room (msg : S) (rs : List Receiver) :
    BusInner.sendEach (fun _ => true) msg rs
      = ⟨rs.map fun r => (r, msg), .returned (.ok ())⟩ := by
  have : rs.takeWhile (fun _ => true) = rs := List.takeWhile_eq_self_iff.2 fun _ _ => rfl
  simp [BusInner.sendEach, this]

/-- With room everywhere on an open bus. -/
theorem broadcasts_room (s : ReceiverSet) {msg : S} (hc : CloneMessage.tryClone msg = true)
    (options : SendOptions) :
    (BusInner.new s).broadcasts (fun _ => true) msg options
      = [CallKind.send, .send, .send, .sendBoxed options].map fun kind =>
        ⟨(kind.select (.new s) (Message.typeTag msg)).map fun r => (r, msg),
          .returned (.ok ())⟩ := by
  simp [BusInner.broadcasts, BusInner.sendExt, BusInner.trySendExt, BusInner.forceSendExt,
    BusInner.sendBoxed, sendEach_room, hc, BusInner.new]

variable {s : ReceiverSet} {msg : S} {options : SendOptions}

theorem sameReceivers_iff_perm (hc : CloneMessage.tryClone msg = true) :
    SameReceivers s msg options ↔ ∃ rs : List Receiver, (rs.map (·.id)).Nodup
      ∧ (∀ r ∈ rs, options.passes r.id = true)
      ∧ (CallKind.send.select (.new s) (Message.typeTag msg)).Perm rs
      ∧ ((CallKind.sendBoxed options).select (.new s) (Message.typeTag msg)).Perm rs := by
  have hinj : Function.Injective fun r : Receiver => (r, msg) := fun r r' h => congrArg Prod.fst h
  unfold SameReceivers
  rw [broadcasts_room s hc]
  simp [List.map_perm_map_iff hinj]

theorem accepts_of_sameReceivers (hc : CloneMessage.tryClone msg = true)
    (h : SameReceivers s msg options) {r : Receiver} (hr : r ∈ s.receivers)
    (hty : ∃ ty ∈ r.iterTypes, ty.1 = Message.typeTag msg) :
    r.acceptMsg (Message.typeTag msg) = true ∧ options.passes r.id = true := by
  obtain ⟨rs, -, -, hsend, hboxed⟩ := (sameReceivers_iff_perm hc).1 h
  have hmem : r ∈ rs := hsend.mem_iff.1 (mem_send.2 ⟨hr, hty⟩)
  exact (mem_boxed.1 (hboxed.mem_iff.2 hmem)).2

/-- The four address the same receivers, and only those the options let through, exactly where every
receiver listed for the tag takes plain messages of it and passes the options. -/
theorem sameReceivers_iff (s : ReceiverSet) {msg : S} (hc : CloneMessage.tryClone msg = true)
    (options : SendOptions) :
    SameReceivers s msg options
      ↔ ∀ r ∈ s.receivers, (∃ ty ∈ r.iterTypes, ty.1 = Message.typeTag msg) →
        r.acceptMsg (Message.typeTag msg) = true ∧ options.passes r.id = true := by
  refine ⟨fun h r hr hty => accepts_of_sameReceivers hc h hr hty, fun h => ?_⟩
  refine (sameReceivers_iff_perm hc).2 ⟨CallKind.send.select (.new s) (Message.typeTag msg),
    nodup_send s _, fun r hr => (h r (mem_send.1 hr).1 (mem_send.1 hr).2).2, .refl _, ?_⟩
  refine (List.perm_ext_iff_of_nodup (nodup_boxed s _ options).of_map
    (nodup_send s _).of_map).2 fun r => ?_
  rw [mem_boxed, mem_send]
  constructor
  · rintro ⟨hr, ha, -⟩
    obtain ⟨ty, hty, hq⟩ := queries_of_acceptMsg ha
    exact ⟨hr, ty, hty, mem_queries_iff.1 hq⟩
  · rintro ⟨hr, hty⟩
    exact ⟨hr, h r hr hty⟩

/-- A bus with the one receiver, of id 1. -/
def ReceiverSet.one (kind : ReceiverKind) : ReceiverSet := ⟨[⟨1, kind⟩], List.nodup_singleton _⟩

/-- Two local receivers and a relay that take the type, and a receiver of another. -/
def fourReceivers : ReceiverSet where
  receivers := [⟨1, .localTypes "app::Flag" "()" "app::Err"⟩,
    ⟨2, .relay (.ofList [("app::Flag", none)])⟩, ⟨3, .localTypes "app::Msg" "()" "app::Err"⟩,
    ⟨4, .localTypes "app::Flag" "()" "app::Err"⟩]
  distinct := by decide

/-- The option leaves out a receiver that is none of the type's. -/
theorem sameReceivers_three : SameReceivers fourReceivers (⟨true⟩ : Flag) (.except 3) := by
  refine (sameReceivers_iff _ rfl _).2 fun r hr hty => ?_
  simp only [fourReceivers, List.mem_cons, List.not_mem_nil, or_false] at hr
  rcases hr with rfl | rfl | rfl | rfl
  · exact ⟨rfl, rfl⟩
  · exact ⟨rfl, rfl⟩
  · obtain ⟨ty, hty, htag⟩ := hty
    obtain rfl := List.mem_singleton.1 hty
    exact absurd htag (by decide)
  · exact ⟨rfl, rfl⟩

/-- A local receiver that the option leaves out, and a relay that takes the type as a request. -/
theorem typed_broadcast_unfiltered :
    (¬ ∀ s (msg : Flag) options, CloneMessage.tryClone msg = true → SameReceivers s msg options)
    ∧ ¬ SameReceivers (.one (.localTypes "app::Flag" "()" "app::Err")) (⟨true⟩ : Flag) (.except 1)
    ∧ ¬ SameReceivers (.one (.relay (.ofList [("app::Flag", some ("()", "app::Err"))])))
      (⟨true⟩ : Flag) .broadcast := by
  have hexcept : ¬ SameReceivers (.one (.localTypes "app::Flag" "()" "app::Err")) (⟨true⟩ : Flag)
      (.except 1) := fun h => by
    have := (accepts_of_sameReceivers rfl h (List.mem_singleton_self _)
      ⟨_, List.mem_singleton_self _, rfl⟩).2
    cases this
  refine ⟨fun h => hexcept (h _ _ _ rfl), hexcept, fun h => ?_⟩
  have := (accepts_of_sameReceivers rfl h (List.mem_singleton_self _)
    ⟨_, List.mem_singleton_self _, rfl⟩).1
  cases this

end MessageBus
