import MessageBus.Operations
import MessageBus.Proofs.Link
import MessageBus.Proofs.Slots

/-!
# What the sending operations leave as it was

A reservation and a send change a receiver's counters and its queue; its types and its waiter table
they keep. Only a request's waiter enters the table.
-/

namespace MessageBus

variable {S T : Type}

namespace SlotReceiver

variable [SharedMessage S] (isM : S → Bool) (ep : EntryPoint) (r : SlotReceiver S) (msg : S)

/-- A message of its own type while its queue is open, or a shared one while the relay's channel
has its receiving half. -/
def Accepts : Prop :=
  match r with
  | typed _ closed _ => isM msg = true ∧ closed = false
  | relay _ inner => SharedMessage.isShared msg = true ∧ inner.rx = true

/-- The cast to the receiver's typed handle fails, and is unwrapped. -/
def Unwraps : Prop :=
  match r with
  | typed _ _ _ => isM msg = false ∧ ep ≠ .sendBoxed
  | relay _ _ => False

/-- The receiver with one more message on its queue. -/
def pushed (mid : UInt64) (msg : S) (req : Bool) : SlotReceiver S → SlotReceiver S
  | typed context closed rx => typed context closed (rx ++ [.request mid msg req])
  | relay context inner =>
    relay context { inner with items := inner.items ++ [(some (.send mid msg req), 0)] }

theorem call_cases (mid : UInt64) (req : Bool) :
    (r.Accepts isM msg ∧ r.call isM ep mid msg req
        = some (((r.raised ep (Message.typeTag msg)).pushed mid msg req).setNeedFlush, .ok ())) ∨
      (r.Unwraps isM ep msg ∧ r.call isM ep mid msg req = none) ∨
      (¬ r.Accepts isM msg ∧ ¬ r.Unwraps isM ep msg ∧ ∃ err, r.call isM ep mid msg req
          = some ((r.raised ep (Message.typeTag msg)).setNeedFlush, .error err) ∧
        err.mapErrUnimplemented = some err) := by
  cases r with
  | typed context closed rx =>
    by_cases hm : isM msg = true
    · cases closed with
      | false =>
        refine .inl ⟨⟨hm, rfl⟩, ?_⟩
        cases ep <;> simp [call, sendInner, raised, incrementProcessing, pushed, hm]
      | true =>
        refine .inr (.inr ⟨fun h => absurd h.2 (by decide), fun h => absurd hm (by simp [h.1]),
          .sendError (.closed msg), ?_, rfl⟩)
        cases ep <;> simp [call, sendInner, raised, incrementProcessing, hm]
    · have hm : isM msg = false := by simpa using hm
      by_cases hep : ep = .sendBoxed
      · subst hep
        refine .inr (.inr ⟨fun h => absurd h.1 (by simp [hm]), fun h => h.2 rfl,
          .messageCastError, ?_, rfl⟩)
        simp [call, sendInner, raised, hm]
      · refine .inr (.inl ⟨⟨hm, hep⟩, ?_⟩)
        cases ep <;> simp_all [call, sendInner, incrementProcessing]
  | relay context inner =>
    by_cases hs : SharedMessage.isShared msg = true ∧ inner.rx = true
    · refine .inl ⟨hs, ?_⟩
      cases ep <;> simp [call, sendInner, raised, incrementProcessing, pushed, hs,
        TcpRelay.trySendMsg, TcpRelay.sendItem, Except.map]
    · have herr : inner.trySendMsg mid msg req = .error (.tryAgain msg) := by
        by_cases h : SharedMessage.isShared msg = true
        · have hrx : inner.rx = false := by simpa [h] using hs
          simp [TcpRelay.trySendMsg, TcpRelay.sendItem, h, hrx]
        · simp [TcpRelay.trySendMsg, h]
      refine .inr (.inr ⟨hs, fun h => h, .tryAgain msg, ?_, rfl⟩)
      cases ep <;> simp [call, sendInner, raised, incrementProcessing, herr, Except.map]

end SlotReceiver

namespace BusReceiver

variable {r r' : BusReceiver S T}

/-- What never changes of a receiver. -/
def shape : BusReceiver S T → LocalTypes T ⊕ MessageTable
  | typed types _ _ _ => .inl types
  | relay table _ _ => .inr table

@[simp] theorem shape_withSlots (s : SlotReceiver S) : (r.withSlots s).shape = r.shape := by
  cases r <;> cases s <;> rfl

@[simp] theorem waiters_withSlots (s : SlotReceiver S) :
    (r.withSlots s).waiters = r.waiters := by
  cases r <;> cases s <;> rfl

@[simp] theorem withSlots_slots : r.withSlots r.slots = r := by
  cases r <;> rfl

section Waiter

variable {key : Option Slab.Key} {tx : ℕ} {kind : WaiterKind}

/-- The waiter table takes an entry under the slot it gives. -/
def HasRoom (r : BusReceiver S T) (key : Option Slab.Key) : Prop :=
  ∃ k, key = some k ∧ r.waiters k = none

/-- The kind of the entry a waiter makes: those of a relay are all boxed. -/
def channel (r : BusReceiver S T) (kind : WaiterKind) : WaiterKind :=
  match r with
  | typed _ _ _ _ => kind
  | relay _ _ _ => .boxed

@[simp] theorem channel_channel : r.channel (r.channel kind) = r.channel kind := by
  cases r <;> rfl

/-- A waiter enters the table where there is room, and changes nothing else. -/
theorem addResponseListener_of_hasRoom (tx : ℕ) (kind : WaiterKind)
    (h : r.HasRoom key) :
    ∃ k r', key = some k ∧ r.addResponseListener key tx kind = .ok (k, r') ∧ r.waiters k = none ∧
      r'.waiters k = some ⟨r.channel kind, tx⟩ ∧ r'.slots = r.slots ∧ r'.shape = r.shape := by
  obtain ⟨k, rfl, hk⟩ := h
  cases r with
  | typed types wrapper closed rx =>
    have hk' : wrapper.waiters.slot k = none := hk
    have hins := Slab.insert_eq_some (a := Waiter.mk kind tx).2 ⟨hk', rfl⟩
    let w : Slab Waiter := ⟨Function.update wrapper.waiters.slot k (some ⟨kind, tx⟩)⟩
    exact ⟨k, typed types ⟨w, wrapper.context⟩ closed rx, rfl,
      by simp only [addResponseListener, hins, w], hk, by simp [waiters, w, channel], rfl, rfl⟩
  | relay table wrapper inner =>
    have hk' : wrapper.waiters.slot k = none := by simpa [waiters] using hk
    have hins := Slab.insert_eq_some (a := tx).2 ⟨hk', rfl⟩
    let w : Slab ℕ := ⟨Function.update wrapper.waiters.slot k (some tx)⟩
    exact ⟨k, relay table ⟨wrapper.context, w⟩ inner, rfl,
      by simp only [addResponseListener, hins, w], hk, by simp [waiters, w, channel], rfl, rfl⟩

theorem addResponseListener_of_full (h : ¬ r.HasRoom key) :
    r.addResponseListener key tx kind = .error .addListenerError := by
  cases key with
  | none => cases r <;> rfl
  | some k =>
    have hk : r.waiters k ≠ none := fun hk => h ⟨k, rfl, hk⟩
    cases r with
    | typed types wrapper closed rx =>
      have hk : wrapper.waiters.slot k ≠ none := hk
      simp only [addResponseListener, Slab.insert, hk, if_false]
    | relay table wrapper inner =>
      have hk : wrapper.waiters.slot k ≠ none := by simpa [waiters] using hk
      simp only [addResponseListener, Slab.insert, hk, if_false]

/-- A waiter for these response and error types is implemented, and its cast succeeds. -/
def ListensFor (r : BusReceiver S T) (resp e : Option T) : Prop :=
  match r with
  | typed types _ _ _ => (∀ x ∈ resp, types.r = x) ∧ ∀ x ∈ e, types.e = x
  | relay _ _ _ => e = none

/-- What the four ways to add a waiter have in common. -/
def IsWaiter (r : BusReceiver S T) (key : Option Slab.Key) (tx : ℕ) (resp e : Option T)
    (kind : WaiterKind)
    (w : Option (Except (Error Unit GenericError) (Slab.Key × BusReceiver S T))) : Prop :=
  (r.ListensFor resp e ∧ w = some (r.addResponseListener key tx (r.channel kind))) ∨
    (¬ r.ListensFor resp e ∧ w = none)

theorem isWaiter_boxed : r.IsWaiter key tx none none .boxed (r.addResponseWaiterBoxed key tx) := by
  refine .inl ⟨?_, ?_⟩
  · cases r <;> simp [ListensFor]
  · cases r <;> rfl

variable [DecidableEq T]

theorem isWaiter_boxedWe (e : T) :
    r.IsWaiter key tx none (some e) .boxedWithError (r.addResponseWaiterBoxedWe key tx e) := by
  cases r with
  | typed types wrapper closed rx =>
    by_cases h : types.e = e
    · exact .inl ⟨by simp [ListensFor, h],
        by simp [addResponseWaiterBoxedWe, LocalTypes.castErrorOnly, h, channel]⟩
    · exact .inr ⟨by simp [ListensFor, h],
        by simp [addResponseWaiterBoxedWe, LocalTypes.castErrorOnly, h]⟩
  | relay table wrapper inner => exact .inr ⟨by simp [ListensFor], rfl⟩

theorem isWaiter_plain (resp : T) :
    r.IsWaiter key tx (some resp) none .withoutErrorType (r.addResponseWaiter key tx resp) := by
  cases r with
  | typed types wrapper closed rx =>
    by_cases h : types.r = resp
    · exact .inl ⟨by simp [ListensFor, h],
        by simp [addResponseWaiter, LocalTypes.castRetOnly, h, channel]⟩
    · exact .inr ⟨by simp [ListensFor, h], by simp [addResponseWaiter, LocalTypes.castRetOnly, h]⟩
  | relay table wrapper inner => exact .inl ⟨rfl, rfl⟩

theorem isWaiter_we (resp e : T) :
    r.IsWaiter key tx (some resp) (some e) .withErrorType
      (r.addResponseWaiterWe key tx resp e) := by
  cases r with
  | typed types wrapper closed rx =>
    by_cases h : types.r = resp ∧ types.e = e
    · exact .inl ⟨by simp [ListensFor, h],
        by simp [addResponseWaiterWe, LocalTypes.castRetAndError, h, channel]⟩
    · exact .inr ⟨by simpa [ListensFor] using h,
        by simp [addResponseWaiterWe, LocalTypes.castRetAndError, h]⟩
  | relay table wrapper inner => exact .inr ⟨by simp [ListensFor], rfl⟩

end Waiter

section Send

/-- The messages on a receiver's queue. -/
def queue : BusReceiver S T → List (Request S)
  | typed _ _ _ rx => rx
  | relay _ _ inner => inner.items.filterMap fun
    | (some (.send mid msg req), _) => some (.request mid msg req)
    | _ => none

variable [TypeTagged T] [DecidableEq T] [TypedMessage S T]

def Accepts (r : BusReceiver S T) (msg : S) : Prop := r.slots.Accepts r.isM msg

def Unwraps (r : BusReceiver S T) (ep : EntryPoint) (msg : S) : Prop := r.slots.Unwraps r.isM ep msg

theorem isM_of_shape (h : r'.shape = r.shape) : r'.isM = r.isM := by
  cases r <;> cases r' <;> cases h <;> rfl

/-- A send pushes its message, panics, or is refused with an error of no handler's. -/
theorem send_cases (r : BusReceiver S T) (ep : EntryPoint) (mid : UInt64) (msg : S) (req : Bool) :
    (r.Accepts msg ∧ ∃ s, r.send ep mid msg req = some (r.withSlots s, .ok ()) ∧
        (r.withSlots s).queue = r.queue ++ [.request mid msg req]) ∨
      (r.Unwraps ep msg ∧ r.send ep mid msg req = none) ∨
      (¬ r.Accepts msg ∧ ¬ r.Unwraps ep msg ∧ ∃ s err,
        r.send ep mid msg req = some (r.withSlots s, .error err) ∧
        (r.withSlots s).queue = r.queue ∧ err.mapErrUnimplemented = some err) := by
  rcases SlotReceiver.call_cases r.isM ep r.slots msg mid req with ⟨ha, h⟩ | ⟨hu, h⟩ |
    ⟨ha, hu, err, h, herr⟩
  · refine .inl ⟨ha, _, congrArg (Option.map _) h, ?_⟩
    cases r <;> cases ep <;> simp [queue, slots, withSlots, SlotReceiver.raised,
      SlotReceiver.incrementProcessing, SlotReceiver.pushed, SlotReceiver.setNeedFlush]
  · exact .inr (.inl ⟨hu, congrArg (Option.map _) h⟩)
  · refine .inr (.inr ⟨ha, hu, _, err, congrArg (Option.map _) h, ?_, herr⟩)
    cases r <;> cases ep <;> rfl

end Send

end BusReceiver

namespace LiveBus

variable {b b' : LiveBus S T} {env : CallSetting S} {ep : EntryPoint} {tt : TypeTag}
  {id j : UInt64}

/-- Each receiver has the types and the waiters it had. -/
structure Frame (b b' : LiveBus S T) : Prop where
  ids : b'.ids = b.ids
  closed : b'.closed = b.closed
  shape : ∀ j, (b'.receivers j).shape = (b.receivers j).shape
  waiters : ∀ j, (b'.receivers j).waiters = (b.receivers j).waiters

theorem Frame.refl (b : LiveBus S T) : Frame b b := ⟨rfl, rfl, fun _ => rfl, fun _ => rfl⟩

theorem Frame.trans {b₁ b₂ b₃ : LiveBus S T} (h : Frame b₁ b₂) (h' : Frame b₂ b₃) :
    Frame b₁ b₃ :=
  ⟨h'.ids.trans h.ids, h'.closed.trans h.closed, fun j => (h'.shape j).trans (h.shape j),
    fun j => (h'.waiters j).trans (h.waiters j)⟩

@[simp] theorem receivers_set (b : LiveBus S T) (id : UInt64) (r : BusReceiver S T) :
    (b.set id r).receivers id = r := by
  simp [set]

theorem frame_fetchId : Frame b b.fetchId := ⟨rfl, rfl, fun _ => rfl, fun _ => rfl⟩

theorem frame_set_withSlots (s : SlotReceiver S) :
    Frame b (b.set id ((b.receivers id).withSlots s)) where
  ids := rfl
  closed := rfl
  shape j := by
    by_cases hj : j = id
    · subst hj
      simp [set]
    · simp [set, hj]
  waiters j := by
    by_cases hj : j = id
    · subst hj
      simp [set]
    · simp [set, hj]

/-- A request panics on its waiter, finds no room for it, or goes on with its receiver changed by
that one entry. -/
theorem listen_cases {key : Option Slab.Key} {tx : ℕ} {resp e : Option T} {kind : WaiterKind}
    {w : Option (Except (Error Unit GenericError) (Slab.Key × BusReceiver S T))}
    (hw : (b.receivers id).IsWaiter key tx resp e kind w)
    (conv : Error Unit GenericError → Option (Error S GenericError))
    (next : LiveBus S T → Slab.Key → CallOutcome S T) :
    (¬ (b.receivers id).ListensFor resp e ∧ b.listen id w conv next = ⟨b, [], .panicked⟩) ∨
      ((b.receivers id).ListensFor resp e ∧ ¬ (b.receivers id).HasRoom key ∧
        b.listen id w conv next = ⟨b, [], .failed (conv .addListenerError)⟩) ∨
      ((b.receivers id).ListensFor resp e ∧ ∃ k r, key = some k ∧
        (b.receivers id).waiters k = none ∧ r.waiters k = some ⟨(b.receivers id).channel kind, tx⟩ ∧
        r.slots = (b.receivers id).slots ∧ r.shape = (b.receivers id).shape ∧
        b.listen id w conv next = next (b.set id r) k) := by
  rcases hw with ⟨hl, rfl⟩ | ⟨hl, rfl⟩
  · by_cases hr : (b.receivers id).HasRoom key
    · obtain ⟨k, r, hk, hadd, hnone, hsome, hslots, hshape⟩ :=
        BusReceiver.addResponseListener_of_hasRoom tx ((b.receivers id).channel kind) hr
      rw [BusReceiver.channel_channel] at hsome
      exact .inr (.inr ⟨hl, k, r, hk, hnone, hsome, hslots, hshape, by simp only [listen, hadd]⟩)
    · exact .inr (.inl ⟨hl, hr,
        by simp only [listen, BusReceiver.addResponseListener_of_full hr]⟩)
  · exact .inl ⟨hl, rfl⟩

variable [TypeTagged T] [TypedMessage S T]

theorem frame_permitDrop : Frame b (b.permitDrop tt id) := frame_set_withSlots _

theorem frame_tryReserve {r : BusReceiver S T} (h : (b.receivers id).tryReserve tt = some r) :
    Frame b (b.set id r) := by
  obtain ⟨s, -, rfl⟩ := Option.map_eq_some_iff.1 h
  exact frame_set_withSlots s

theorem frame_reserve (h : b.reserve env ep id tt = some b') : Frame b b' := by
  unfold reserve at h
  split_ifs at h with hep
  · cases h
    exact .refl b
  · obtain ⟨s, -, h⟩ := Option.bind_eq_some_iff.1 h
    obtain ⟨r, hr, rfl⟩ := Option.map_eq_some_iff.1 h
    obtain ⟨s', -, rfl⟩ := Option.map_eq_some_iff.1 hr
    refine ⟨rfl, rfl, fun j => ?_, fun j => ?_⟩ <;> by_cases hj : j = id
    · subst hj
      simp [set]
    · simp [set, hj]
    · subst hj
      simp [set]
    · simp [set, hj]

variable [DecidableEq T]

theorem frame_sendTo (mid : UInt64) (msg : S) (req : Bool) :
    Frame b (b.sendTo ep id mid msg req).1 := by
  unfold sendTo
  split
  · rename_i r res h
    obtain ⟨s, -, hr⟩ := Option.map_eq_some_iff.1 h
    cases hr
    exact frame_set_withSlots _
  · split_ifs
    · exact frame_set_withSlots _
    · exact frame_permitDrop

/-- What a send logs as accepted is what went on the receiver's queue; the others are as they
were. -/
theorem queue_sendTo {mid : UInt64} {msg : S} {req : Bool}
    {res : Except (Error S GenericError) Unit}
    (h : b.sendTo ep id mid msg req = (b', some res)) :
    (b'.receivers id).queue
      = (b.receivers id).queue ++ (acceptedItem id mid msg req res).map Prod.snd ∧
    ∀ j, j ≠ id → b'.receivers j = b.receivers j := by
  unfold sendTo at h
  rcases (b.receivers id).send_cases ep mid msg req with ⟨-, s, hs, hq⟩ | ⟨-, hs⟩ |
    ⟨-, -, s, err, hs, hq, -⟩
  · rw [hs] at h
    cases h
    exact ⟨by simpa [acceptedItem] using hq, fun j hj => by simp [set, hj]⟩
  · rw [hs] at h
    dsimp only at h
    split_ifs at h <;> cases h
  · rw [hs] at h
    cases h
    exact ⟨by simpa [acceptedItem] using hq, fun j hj => by simp [set, hj]⟩

theorem frame_sendRequest {key : Slab.Key} {req : S}
    {conv : Error S GenericError → Option (Error S GenericError)} :
    Frame b (b.sendRequest env id ep tt key req conv).bus := by
  unfold sendRequest
  split
  · exact .refl b
  · rename_i b₁ hb₁
    have h : Frame b (b₁.sendTo ep id (requestMid key) req true).1 :=
      (frame_reserve hb₁).trans (frame_sendTo _ req true)
    split <;> rename_i hs <;> rw [hs] at h <;> exact h

theorem frame_sendOneTo (mid : UInt64) (msg : S) : Frame b (b.sendOneTo ep id mid msg).bus := by
  have h : Frame b (b.sendTo ep id mid msg false).1 := frame_sendTo mid msg false
  unfold sendOneTo
  split <;> rename_i hs <;> rw [hs] at h <;> exact h

theorem frame_sendFirst (mid : UInt64) (msg : S) (rs : List UInt64) :
    Frame b (b.sendFirst env ep mid tt msg rs).bus := by
  cases rs with
  | nil => exact .refl b
  | cons id rs =>
    simp only [sendFirst]
    split
    · rename_i b' hb'
      exact (frame_reserve hb').trans (frame_sendOneTo mid msg)
    · exact .refl b

theorem frame_sendEach (mid : UInt64) (copy : Option S) (rs : List UInt64) :
    Frame b (sendEach env ep mid tt copy b rs).bus := by
  induction rs generalizing b with
  | nil => exact .refl b
  | cons id rs ih =>
    cases copy with
    | none => exact .refl b
    | some msg =>
      simp only [sendEach]
      split
      · exact .refl b
      · rename_i b₁ hb₁
        have h : Frame b (b₁.sendTo ep id mid msg false).1 :=
          (frame_reserve hb₁).trans (frame_sendTo mid msg false)
        split <;> rename_i hs <;> rw [hs] at h
        · exact h
        · exact h.trans ih

omit [DecidableEq T] in
theorem frame_permitDrops {β : Type} (f : β → UInt64) (l : List β) :
    Frame b (l.foldl (fun b x => b.permitDrop tt (f x)) b) := by
  induction l generalizing b with
  | nil => exact .refl b
  | cons x l ih => exact frame_permitDrop.trans ih

omit [DecidableEq T] in
theorem frame_tryReserves (b : LiveBus S T) (tt : TypeTag) (rs permits : List UInt64) :
    Frame b (tryReserve tt b rs permits).1 := by
  induction rs generalizing b permits with
  | nil => exact .refl b
  | cons r rs ih =>
    simp only [tryReserve]
    split
    · rename_i prmt hp
      exact (frame_tryReserve hp).trans (ih _ _)
    · exact frame_permitDrops id permits

theorem frame_sendHead (b : LiveBus S T) (mid : UInt64) (msg : S) (n : ℕ)
    (iter : List (UInt64 × UInt64)) : Frame b (sendHead mid msg n b iter).1 := by
  induction n generalizing b iter with
  | zero => exact .refl b
  | succ n ih =>
    rcases iter with - | ⟨⟨p, r⟩, iter⟩
    · exact .refl b
    · have h : Frame b (b.sendTo .send r mid msg false).1 := frame_sendTo mid msg false
      simp only [sendHead]
      split <;> rename_i hs <;> rw [hs] at h
      · exact h.trans (ih _ iter)
      · exact h.trans (frame_permitDrops Prod.fst iter)

theorem frame_trySendExt (msg : S) (options : SendOptions) :
    Frame b (b.trySendExt msg options).bus := by
  unfold trySendExt
  split_ifs
  · exact .refl b
  · have h₁ := frame_fetchId.trans (frame_tryReserves b.fetchId (Message.typeTag msg)
      (b.fetchId.receiversOf (Message.typeTag msg)) [])
    dsimp only
    split <;> rename_i hr <;> rw [hr] at h₁
    · exact h₁
    · rename_i b₁ permits
      have h₂ := h₁.trans (frame_sendHead b₁ b.idCounter msg
        ((b.fetchId.receiversOf (Message.typeTag msg)).length - 1)
        (permits.zip (b.fetchId.receiversOf (Message.typeTag msg))))
      split <;> rename_i hh <;> rw [hh] at h₂
      · exact h₂
      · exact h₂
      · split <;> exact h₂.trans (frame_sendOneTo _ _)

end LiveBus

namespace Operation

variable [TypeTagged T] [DecidableEq T] [TypedMessage S T] {c : Codec S} {env : CallSetting S}
  {b : LiveBus S T}

/-- Whether the source looks at the closed flag. -/
def checksClosed : Operation S T → Bool
  | request _ _ _ | requestWe _ _ _ _ => false
  | _ => true

variable (c env) in
theorem run_of_checksClosed (hb : b.closed = true) {op : Operation S T}
    (hop : op.checksClosed = true) :
    ∃ err, op.run c env b = ⟨b, [], .returned (.error err)⟩ := by
  cases op with
  | request => cases hop
  | requestWe => cases hop
  | _ => exact ⟨_, if_pos hb⟩

/-- Whether the operation waits for a response. -/
def isReq : Operation S T → Bool
  | request _ _ _ | requestWe _ _ _ _ | requestBoxed _ _ | requestBoxedWe _ _ _
  | requestDeserialize _ _ _ => true
  | _ => false

/-- The sends enter no waiter. -/
theorem frame_run {op : Operation S T} (hop : op.isReq = false) : b.Frame (op.run c env b).bus := by
  have hid : b.Frame b.fetchId := LiveBus.frame_fetchId
  cases op with
  | trySendExt msg options => exact LiveBus.frame_trySendExt msg options
  | sendExt msg options =>
    simp only [run, LiveBus.sendExt]
    split_ifs
    · exact .refl b
    · exact hid.trans (LiveBus.frame_sendEach _ _ _)
  | forceSendExt msg options =>
    simp only [run, LiveBus.forceSendExt]
    split_ifs
    · exact .refl b
    · exact hid.trans (LiveBus.frame_sendEach _ _ _)
  | trySendOne msg =>
    simp only [run, LiveBus.trySendOne]
    split_ifs
    · exact .refl b
    · split
      · split
        · rename_i h
          exact hid.trans ((LiveBus.frame_tryReserve h).trans (LiveBus.frame_sendOneTo _ _))
        · exact hid
      · exact hid
  | sendOne msg =>
    simp only [run, LiveBus.sendOne]
    split_ifs
    · exact .refl b
    · exact hid.trans (LiveBus.frame_sendFirst _ _ _)
  | sendBoxed msg options =>
    simp only [run, LiveBus.sendBoxed]
    split_ifs
    · exact .refl b
    · split
      · exact hid
      · exact hid.trans (LiveBus.frame_sendEach _ _ _)
  | sendBoxedOne msg options =>
    simp only [run, LiveBus.sendBoxedOne]
    split_ifs
    · exact .refl b
    · exact hid.trans (LiveBus.frame_sendFirst _ _ _)
  | sendDeserializeOne tt de options =>
    simp only [run, LiveBus.sendDeserializeOne]
    split_ifs
    · exact .refl b
    · split
      · unfold LiveBus.deserialized
        split
        · exact hid.trans (LiveBus.frame_sendFirst _ _ _)
        · exact hid
        · exact hid
      · exact hid
  | request | requestWe | requestBoxed | requestBoxedWe | requestDeserialize => cases hop

end Operation

/-- The four request methods: what each asks for, and by which entry it sends. -/
structure RequestCall (S T : Type) where
  req : S
  tt : TypeTag
  options : SendOptions
  resp : Option T
  e : Option T
  ep : EntryPoint
  kind : WaiterKind

section Calls

variable [TypeTagged T] [DecidableEq T] [TypedMessage S T]

def Operation.requestCall : Operation S T → Option (RequestCall S T)
  | request req options resp => some ⟨req, TypeTagged.typeTag_ (TypedMessage.typeId req), options,
      some resp, none, .send, .withoutErrorType⟩
  | requestWe req options resp e => some ⟨req, TypeTagged.typeTag_ (TypedMessage.typeId req),
      options, some resp, some e, .send, .withErrorType⟩
  | requestBoxed req options =>
    some ⟨req, Message.typeTag req, options, none, none, .sendBoxed, .boxed⟩
  | requestBoxedWe req options e =>
    some ⟨req, Message.typeTag req, options, none, some e, .sendBoxed, .boxedWithError⟩
  | _ => none

/-- The receiver that gets the request. -/
def RequestCall.selected (a : RequestCall S T) (b : LiveBus S T) : Option UInt64 :=
  (b.selectReceivers a.tt a.options (a.resp.map TypeTagged.typeTag_)
    (a.e.map TypeTagged.typeTag_) true).head?

variable {b : LiveBus S T} {a : RequestCall S T}

/-- Past the closed flag the four methods differ in what they ask for, and in how they convert
errors. -/
theorem Operation.run_requestCall (c : Codec S) (env : CallSetting S) {op : Operation S T}
    (hb : op.checksClosed = true → b.closed = false) (ha : op.requestCall = some a) :
    (a.selected b = none ∧ op.run c env b = ⟨b, [], .returned (.error .noReceivers)⟩) ∨
      ∃ rc w conv conv', a.selected b = some rc ∧
        (b.receivers rc).IsWaiter env.key env.tx a.resp a.e a.kind w ∧
        (conv .addListenerError).isSome = true ∧
        (∀ err : Error S GenericError, err.mapErrUnimplemented = some err →
          (conv' err).isSome = true) ∧
        op.run c env b = b.listen rc w conv fun b key =>
          b.sendRequest env rc a.ep a.tt key a.req conv' := by
  have hplain : ∀ err : Error S GenericError, err.mapErrUnimplemented = some err →
      (some err).isSome = true := fun _ _ => rfl
  have hwe : ∀ err : Error S GenericError, err.mapErrUnimplemented = some err →
      (err.mapErrUnimplemented : Option (Error S GenericError)).isSome = true :=
    fun err h => by rw [h]; rfl
  cases op with
  | request req options resp =>
    cases ha
    simp only [run, LiveBus.request, RequestCall.selected]
    split
    · rename_i rc rs h
      exact .inr ⟨rc, _, _, _, by simp [h], BusReceiver.isWaiter_plain resp, rfl, hplain, rfl⟩
    · rename_i h
      exact .inl ⟨by simp [h], rfl⟩
  | requestWe req options resp e =>
    cases ha
    simp only [run, LiveBus.requestWe, RequestCall.selected]
    split
    · rename_i rc rs h
      exact .inr ⟨rc, _, _, _, by simp [h], BusReceiver.isWaiter_we resp e, rfl, hwe, rfl⟩
    · rename_i h
      exact .inl ⟨by simp [h], rfl⟩
  | requestBoxed req options =>
    cases ha
    simp only [run, LiveBus.requestBoxed, RequestCall.selected, hb rfl, Bool.false_eq_true,
      if_false]
    split
    · rename_i rc rs h
      exact .inr ⟨rc, _, _, _, by simp [h], BusReceiver.isWaiter_boxed, rfl, hplain, rfl⟩
    · rename_i h
      exact .inl ⟨by simp [h], rfl⟩
  | requestBoxedWe req options e =>
    cases ha
    simp only [run, LiveBus.requestBoxedWe, RequestCall.selected, hb rfl, Bool.false_eq_true,
      if_false]
    split
    · rename_i rc rs h
      exact .inr ⟨rc, _, _, _, by simp [h], BusReceiver.isWaiter_boxedWe e, rfl, hwe, rfl⟩
    · rename_i h
      exact .inl ⟨by simp [h], rfl⟩
  | _ => cases ha

end Calls

/-- A type that is known by its tag. -/
structure NamedType where
  name : TypeTag
  deriving DecidableEq

instance : TypeTagged NamedType := ⟨NamedType.name⟩

instance : TypedMessage Flag NamedType where
  typeId _ := ⟨"app::Flag"⟩
  typeTag_eq _ := rfl

/-- A local receiver of `Flag` with an empty queue, and nobody waiting. -/
def BusReceiver.flag (limit : UInt64) : BusReceiver Flag NamedType :=
  .typed ⟨⟨"app::Flag"⟩, ⟨"()"⟩, ⟨"app::Err"⟩⟩ ⟨.empty, .new limit true⟩ false []

/-- A bus with the one receiver, of id 1. -/
def LiveBus.one (r : BusReceiver S T) : LiveBus S T :=
  ⟨[1], List.nodup_singleton _, fun _ => r, false, 1⟩

/-- A bus with two receivers, of ids 1 and 2. -/
def LiveBus.two (r₁ r₂ : BusReceiver S T) : LiveBus S T :=
  ⟨[1, 2], by decide, fun id => if id = 1 then r₁ else r₂, false, 2⟩

end MessageBus
