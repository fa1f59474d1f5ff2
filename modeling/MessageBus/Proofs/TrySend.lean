import Mathlib.Algebra.Group.Nat.Defs
import MessageBus.Proofs.Bounded
import MessageBus.Proofs.Broadcast
import MessageBus.Proofs.Operations
import MessageBus.Proofs.Tags

/-!
# `try_send` gives to all or to none

The permits are taken in the receivers' order. Where one is refused those before it are dropped,
which gives back what each had taken; otherwise the loop pairs the permits with their receivers
again, all but the last inside and the last behind it.
-/

namespace MessageBus

variable {S T : Type} [TypeTagged T] [TypedMessage S T]

namespace BusReceiver

/-- A local receiver of the message's type, its queue open and its limit within the counter's
range. -/
def OpenFor (r : BusReceiver S T) (msg : S) : Prop :=
  match r with
  | typed types wrapper closed _ => types.m = TypedMessage.typeId msg ∧ closed = false ∧
      wrapper.context.limit.toNat < 2 ^ 63
  | relay _ _ _ => False

/-- The messages a local receiver counts. -/
def count : BusReceiver S T → ℤ
  | typed _ wrapper _ _ => wrapper.context.processing.toInt
  | relay _ _ _ => 0

def AtLimit : BusReceiver S T → Prop
  | typed _ wrapper _ _ =>
    (wrapper.context.limit.toNat : ℤ) ≤ wrapper.context.processing.toInt
  | relay _ _ _ => False

/-- A local receiver with one more permit out. -/
def raise : BusReceiver S T → BusReceiver S T
  | typed types wrapper closed rx =>
    typed types { wrapper with context := wrapper.context.incrementProcessing } closed rx
  | r => r

/-- A local receiver once a message is on its queue. -/
def push (mid : UInt64) (msg : S) : BusReceiver S T → BusReceiver S T
  | typed types wrapper closed rx =>
    typed types { wrapper with context := { wrapper.context with needFlush := true } } closed
      (rx ++ [.request mid msg false])
  | r => r

variable {r : BusReceiver S T} {msg : S} {tt : TypeTag}

theorem openFor_raise : r.raise.OpenFor msg ↔ r.OpenFor msg := by
  cases r <;> rfl

theorem processing_lt_iff {types : LocalTypes T} {wrapper : ReceiverWrapper} {closed : Bool}
    {rx : List (Request S)} (h : (typed types wrapper closed rx).OpenFor msg) :
    wrapper.context.processing < wrapper.context.limit.toInt64
      ↔ ¬ (typed types wrapper closed rx).AtLimit := by
  rw [Int64.lt_iff_toInt_lt, toInt64_of_lt h.2.2]
  exact Int.not_le.symm

theorem tryReserve_of_below (h : r.OpenFor msg) (hl : ¬ r.AtLimit) :
    r.tryReserve tt = some r.raise := by
  cases r with
  | relay => exact h.elim
  | typed types wrapper closed rx =>
    have hlim := (processing_lt_iff h).2 hl
    simp [tryReserve, slots, SlotReceiver.tryReserve, ReceiverContext.tryReserve, hlim, withSlots,
      raise, ReceiverContext.incrementProcessing]

theorem tryReserve_of_atLimit (h : r.OpenFor msg) (hl : r.AtLimit) : r.tryReserve tt = none := by
  cases r with
  | relay => exact h.elim
  | typed types wrapper closed rx =>
    have hlim := mt (processing_lt_iff h).1 (not_not.2 hl)
    simp [tryReserve, slots, SlotReceiver.tryReserve, ReceiverContext.tryReserve, hlim]

/-- Dropping a permit undoes it. -/
theorem permitDrop_raise (h : r.OpenFor msg) : r.raise.permitDrop tt = r := by
  cases r with
  | relay => exact h.elim
  | typed types wrapper closed rx =>
    simp [permitDrop, raise, slots, withSlots, SlotReceiver.permitDrop,
      ReceiverContext.incrementProcessing]

theorem send_of_open [DecidableEq T] (h : r.OpenFor msg) (mid : UInt64) :
    r.send .send mid msg false = some (r.push mid msg, .ok ()) := by
  cases r with
  | relay => exact h.elim
  | typed types wrapper closed rx =>
    obtain ⟨hm, rfl, -⟩ := h
    simp [send, slots, SlotReceiver.call, SlotReceiver.sendInner, isM, LocalTypes.castSendTyped, hm,
      SlotReceiver.setNeedFlush, withSlots, push]

/-- What a receiver gets by a successful call. -/
theorem push_raise (h : r.OpenFor msg) (hl : ¬ r.AtLimit) (mid : UInt64) :
    (r.raise.push mid msg).queue = r.queue ++ [.request mid msg false] ∧
      (r.raise.push mid msg).count = r.count + 1 := by
  cases r with
  | relay => exact h.elim
  | typed types wrapper closed rx => exact ⟨rfl, toInt_add_one ((processing_lt_iff h).2 hl)⟩

end BusReceiver

namespace LiveBus

variable {b : LiveBus S T} {tt : TypeTag} {msg : S} {mid : UInt64}

/-- The receivers with those of the ids changed. -/
def changed (b : LiveBus S T) (f : BusReceiver S T → BusReceiver S T) (ids : List UInt64) :
    UInt64 → BusReceiver S T :=
  fun id => if id ∈ ids then f (b.receivers id) else b.receivers id

omit [TypeTagged T] [TypedMessage S T] in
theorem changed_set {b₁ : LiveBus S T} {f : BusReceiver S T → BusReceiver S T} {ids : List UInt64}
    {id : UInt64} (h : b₁.receivers = b.changed f ids) (hid : id ∉ ids) :
    (b₁.set id (f (b₁.receivers id))).receivers = b.changed f (ids ++ [id]) := by
  funext j
  by_cases hj : j = id
  · subst hj
    simp [h, changed, hid]
  · simp [set, h, changed, hj]

/-- The permits of an attempt that fails are all dropped. -/
theorem permitDrops_raise {b₁ : LiveBus S T} {permits : List UInt64}
    (h : b₁.receivers = b.changed .raise permits) (hn : permits.Nodup)
    (ho : ∀ id ∈ permits, (b.receivers id).OpenFor msg) :
    (permits.foldl (fun b id => b.permitDrop tt id) b₁).receivers = b.receivers := by
  induction permits generalizing b₁ with
  | nil => exact h.trans (by funext id; simp [changed])
  | cons p permits ih =>
    obtain ⟨hp, hn⟩ := List.nodup_cons.1 hn
    refine ih ?_ hn fun id hid => ho id (List.mem_cons_of_mem p hid)
    funext j
    by_cases hj : j = p
    · subst hj
      have hself : b₁.receivers j = (b.receivers j).raise := by simp [h, changed]
      simp [permitDrop, hself, BusReceiver.permitDrop_raise (ho j List.mem_cons_self), changed, hp]
    · simp [permitDrop, set, h, changed, hj]

/-- The loop that collects the permits, started with those of `permits`. -/
theorem tryReserve_cases (tt : TypeTag) {b₁ : LiveBus S T} {rs permits : List UInt64}
    (h : b₁.receivers = b.changed .raise permits) (hn : (permits ++ rs).Nodup)
    (ho : ∀ id ∈ permits ++ rs, (b.receivers id).OpenFor msg) :
    ((∃ id ∈ rs, (b.receivers id).AtLimit) →
        ∃ b₂, tryReserve tt b₁ rs permits = (b₂, none) ∧ b₂.receivers = b.receivers) ∧
      ((∀ id ∈ rs, ¬ (b.receivers id).AtLimit) →
        ∃ b₂, tryReserve tt b₁ rs permits = (b₂, some (permits ++ rs)) ∧
          b₂.receivers = b.changed .raise (permits ++ rs)) := by
  induction rs generalizing b₁ permits with
  | nil => exact ⟨by simp, fun _ => ⟨b₁, by simp [tryReserve], by simpa using h⟩⟩
  | cons id rs ih =>
    have hid : id ∉ permits := fun hid => (List.disjoint_of_nodup_append hn) hid List.mem_cons_self
    have hself : b₁.receivers id = b.receivers id := by simp [h, changed, hid]
    have hopen := ho id (List.mem_append_right _ List.mem_cons_self)
    by_cases hl : (b.receivers id).AtLimit
    · refine ⟨fun _ => ?_, fun hno => absurd hl (hno id List.mem_cons_self)⟩
      refine ⟨_, by simp only [tryReserve, hself, BusReceiver.tryReserve_of_atLimit hopen hl]; rfl,
        ?_⟩
      exact permitDrops_raise h (List.nodup_append.1 hn).1 fun j hj =>
        ho j (List.mem_append_left _ hj)
    · have hstep : tryReserve tt b₁ (id :: rs) permits
          = tryReserve tt (b₁.set id (b₁.receivers id).raise) rs (permits ++ [id]) := by
        simp only [tryReserve, hself, BusReceiver.tryReserve_of_below hopen hl]
      have hassoc : permits ++ id :: rs = permits ++ [id] ++ rs := by simp
      rw [hassoc] at hn ho
      obtain ⟨hfull, hall⟩ := ih (changed_set h hid) hn ho
      rw [hstep, hassoc]
      refine ⟨fun hlimit => hfull ?_, fun hno => hall fun j hj =>
        hno j (List.mem_cons_of_mem id hj)⟩
      obtain ⟨j, hj, hjl⟩ := hlimit
      rcases List.mem_cons.1 hj with rfl | hj
      · exact absurd hjl hl
      · exact ⟨j, hj, hjl⟩

variable [DecidableEq T]

theorem sendTo_of_open {id : UInt64} (mid : UInt64) (h : (b.receivers id).OpenFor msg) :
    b.sendTo .send id mid msg false
      = (b.set id ((b.receivers id).push mid msg), some (.ok ())) := by
  simp only [sendTo, BusReceiver.send_of_open h]

/-- The loop that sends, once the receivers of `sent` have their copy. -/
theorem sendHead_eq {n : ℕ} {b₁ : LiveBus S T} {iter : List (UInt64 × UInt64)}
    {sent : List UInt64} (h : b₁.receivers = b.changed (.push mid msg) sent)
    (hn : (sent ++ iter.map Prod.snd).Nodup)
    (ho : ∀ id ∈ iter.map Prod.snd, (b.receivers id).OpenFor msg) (hle : n ≤ iter.length) :
    ∃ b₂ accepted, sendHead mid msg n b₁ iter = (b₂, accepted, some (iter.drop n)) ∧
      b₂.receivers = b.changed (.push mid msg) (sent ++ (iter.take n).map Prod.snd) := by
  induction n generalizing b₁ iter sent with
  | zero => exact ⟨b₁, [], rfl, by simpa using h⟩
  | succ n ih =>
    rcases iter with - | ⟨⟨p, r⟩, iter⟩
    · simp at hle
    · simp only [List.map_cons] at hn ho
      have hr : r ∉ sent := fun hr => (List.disjoint_of_nodup_append hn) hr List.mem_cons_self
      have hself : b₁.receivers r = b.receivers r := by simp [h, changed, hr]
      have hsend := sendTo_of_open (b := b₁) mid
        (hself ▸ ho r List.mem_cons_self : (b₁.receivers r).OpenFor msg)
      have hassoc : ∀ l, sent ++ r :: l = sent ++ [r] ++ l := by simp
      rw [hassoc] at hn
      obtain ⟨b₂, accepted, heq, hb₂⟩ := ih (changed_set h hr) hn
        (fun id hid => ho id (List.mem_cons_of_mem r hid)) (Nat.le_of_succ_le_succ hle)
      exact ⟨b₂, _, by simp only [sendHead, hsend, heq, List.drop_succ_cons]; rfl,
        by rw [hb₂, List.take_succ_cons, List.map_cons, hassoc (List.map _ _)]⟩

omit [TypedMessage S T] [DecidableEq T] in
theorem nodup_receiversOf (b : LiveBus S T) (tt : TypeTag) : (b.receiversOf tt).Nodup :=
  nodup_send _ tt

omit [TypedMessage S T] [TypeTagged T] [DecidableEq T] in
theorem changed_nil (f : BusReceiver S T → BusReceiver S T) : b.receivers = b.changed f [] := by
  funext id
  simp [changed]

/-- Where some receiver is at its limit nothing changes. -/
theorem trySendExt_of_full (hb : b.closed = false) (options : SendOptions)
    (ho : ∀ id ∈ b.receiversOf (Message.typeTag msg), (b.receivers id).OpenFor msg)
    (hfull : ∃ id ∈ b.receiversOf (Message.typeTag msg), (b.receivers id).AtLimit) :
    (b.trySendExt msg options).done = .returned (.error (.sendError (.full msg))) ∧
      (b.trySendExt msg options).bus.receivers = b.receivers := by
  have hrs : b.fetchId.receiversOf (Message.typeTag msg) = b.receiversOf (Message.typeTag msg) :=
    rfl
  have h₀ : b.fetchId.receivers = b.changed .raise [] := b.changed_nil _
  obtain ⟨b₁, hres, hb₁⟩ : ∃ b₁, tryReserve (Message.typeTag msg) b.fetchId
      (b.receiversOf (Message.typeTag msg)) [] = (b₁, none) ∧ b₁.receivers = b.receivers :=
    (tryReserve_cases (Message.typeTag msg) h₀ (nodup_receiversOf b _) ho).1 hfull
  simp only [trySendExt, hb, Bool.false_eq_true, if_false, hrs, hres]
  exact ⟨trivial, hb₁⟩

/-- A call that gets all its permits sends to every receiver. -/
theorem trySendExt_of_room (hb : b.closed = false) (options : SendOptions)
    (ho : ∀ id ∈ b.receiversOf (Message.typeTag msg), (b.receivers id).OpenFor msg)
    (hroom : ∀ id ∈ b.receiversOf (Message.typeTag msg), ¬ (b.receivers id).AtLimit) :
    (b.trySendExt msg options).done = .returned (.ok ()) ∧
      (b.trySendExt msg options).bus.receivers
        = b.changed (fun r => r.raise.push b.idCounter msg)
          (b.receiversOf (Message.typeTag msg)) := by
  have hn := nodup_receiversOf b (Message.typeTag msg)
  have hfetch : b.fetchId.receiversOf (Message.typeTag msg)
      = b.receiversOf (Message.typeTag msg) := rfl
  have h₀ : b.fetchId.receivers = b.changed .raise [] := b.changed_nil _
  obtain ⟨b₁, hres, hb₁⟩ : ∃ b₁, tryReserve (Message.typeTag msg) b.fetchId
      (b.receiversOf (Message.typeTag msg)) [] = (b₁, some (b.receiversOf (Message.typeTag msg))) ∧
        b₁.receivers = b.changed .raise (b.receiversOf (Message.typeTag msg)) :=
    (tryReserve_cases (Message.typeTag msg) h₀ hn ho).2 hroom
  simp only [trySendExt, hb, Bool.false_eq_true, if_false, hfetch, hres]
  generalize b.receiversOf (Message.typeTag msg) = rs at *
  rcases List.eq_nil_or_concat rs with rfl | ⟨init, last, rfl⟩
  · exact ⟨rfl, hb₁.trans (by funext id; simp [changed])⟩
  · -- All but the last are sent to in the loop.
    rw [List.concat_eq_append] at *
    have hzip : (init ++ [last]).zip (init ++ [last]) = init.zip init ++ [(last, last)] :=
      List.zip_append rfl
    have hlen : (init ++ [last]).length - 1 = (init.zip init).length := by simp
    have hopen : ∀ id ∈ init ++ [last], (b₁.receivers id).OpenFor msg := fun id hid => by
      rw [hb₁, changed, if_pos hid]
      exact BusReceiver.openFor_raise.2 (ho id hid)
    have hsnd : (init.zip init).map Prod.snd = init := by simp [List.map_snd_zip]
    obtain ⟨b₂, accepted, heq, hb₂⟩ := sendHead_eq (n := (init.zip init).length)
      (b₁.changed_nil (.push b.idCounter msg))
      (by simpa [hsnd] using hn : ([] ++ (init.zip init ++ [(last, last)]).map Prod.snd).Nodup)
      (by simpa [hsnd] using hopen) (by simp)
    have hlast : last ∉ init := fun h => (List.disjoint_of_nodup_append hn) h List.mem_cons_self
    rw [List.drop_left] at heq
    rw [List.take_left, hsnd, List.nil_append] at hb₂
    have hself : b₂.receivers last = b₁.receivers last := by rw [hb₂, changed, if_neg hlast]
    have hsend := sendTo_of_open (b := b₂) b.idCounter
      (hself ▸ hopen last (by simp) : (b₂.receivers last).OpenFor msg)
    simp only [hzip, hlen, heq, sendOneTo, hsend, true_and]
    funext id
    by_cases hid : id = last
    · subst hid
      simp [changed, hself, hb₁]
    · by_cases hin : id ∈ init <;> simp [set, hid, hb₂, hb₁, changed, hin]

/-- The call returns `Full` with its message, and every receiver is as it was. -/
def GaveNone (b : LiveBus S T) (msg : S) (o : CallOutcome S T) : Prop :=
  o.done = .returned (.error (.sendError (.full msg))) ∧ o.bus.receivers = b.receivers

/-- The call returns `Ok`, and each receiver of the tag has one copy more under one mid, counted
once; the others are as they were. -/
def GaveAll (b : LiveBus S T) (msg : S) (o : CallOutcome S T) : Prop :=
  o.done = .returned (.ok ()) ∧ ∃ mid,
    (∀ id ∈ b.receiversOf (Message.typeTag msg),
      (o.bus.receivers id).queue = (b.receivers id).queue ++ [.request mid msg false] ∧
        (o.bus.receivers id).count = (b.receivers id).count + 1) ∧
    ∀ id, id ∉ b.receiversOf (Message.typeTag msg) → o.bus.receivers id = b.receivers id

/-- On local receivers of the message's type `try_send` refuses a closed bus, and else gives its
message to none of them where one is at its limit, to each of them where none is. -/
theorem trySend_allOrNothing (b : LiveBus S T) (msg : S)
    (ho : ∀ id ∈ b.receiversOf (Message.typeTag msg), (b.receivers id).OpenFor msg) :
    (b.closed = true → b.trySend msg = b.refuseClosed msg) ∧
      (b.closed = false → (b.GaveNone msg (b.trySend msg) ∨ b.GaveAll msg (b.trySend msg)) ∧
        (b.GaveNone msg (b.trySend msg)
          ↔ ∃ id ∈ b.receiversOf (Message.typeTag msg), (b.receivers id).AtLimit)) := by
  refine ⟨fun hb => if_pos hb, fun hb => ?_⟩
  by_cases hfull : ∃ id ∈ b.receiversOf (Message.typeTag msg), (b.receivers id).AtLimit
  · have hnone : b.GaveNone msg (b.trySend msg) := trySendExt_of_full hb .broadcast ho hfull
    exact ⟨.inl hnone, iff_of_true hnone hfull⟩
  · have hroom : ∀ id ∈ b.receiversOf (Message.typeTag msg), ¬ (b.receivers id).AtLimit :=
      fun id hid hl => hfull ⟨id, hid, hl⟩
    obtain ⟨hdone, hrec⟩ := trySendExt_of_room hb .broadcast ho hroom
    have hall : b.GaveAll msg (b.trySend msg) := by
      refine ⟨hdone, b.idCounter, fun id hid => ?_, fun id hid => ?_⟩
      · rw [trySend, hrec, changed, if_pos hid]
        exact BusReceiver.push_raise (ho id hid) (hroom id hid) _
      · rw [trySend, hrec, changed, if_neg hid]
    refine ⟨.inr hall, iff_of_false (fun h => ?_) hfull⟩
    have heq := h.1.symm.trans hall.1
    cases heq

theorem openFor_flag (limit : UInt64) (h : limit.toNat < 2 ^ 63) :
    (BusReceiver.flag limit).OpenFor (⟨true⟩ : Flag) := ⟨rfl, rfl, h⟩

/-- A receiver of limit 1 with a message on its queue. -/
def fullFlag : BusReceiver Flag NamedType := (BusReceiver.flag 1).raise.push 1 ⟨false⟩

/-- Two receivers with room, and one with room before one that is at its limit. -/
theorem trySend_allOrNothing_two_flags :
    (two (.flag 1) (.flag 2)).GaveAll ⟨true⟩ ((two (.flag 1) (.flag 2)).trySend (⟨true⟩ : Flag))
    ∧ (two (.flag 2) fullFlag).GaveNone ⟨true⟩
      ((two (.flag 2) fullFlag).trySend (⟨true⟩ : Flag)) := by
  have hroom : ∀ id, ((two (.flag 1) (.flag 2)).receivers id).OpenFor (⟨true⟩ : Flag) :=
    fun id => by
      show (if id = 1 then BusReceiver.flag 1 else .flag 2).OpenFor _
      split_ifs
      · exact openFor_flag 1 (by decide)
      · exact openFor_flag 2 (by decide)
  have hfull : ∀ id, ((two (.flag 2) fullFlag).receivers id).OpenFor (⟨true⟩ : Flag) :=
    fun id => by
      show (if id = 1 then BusReceiver.flag 2 else fullFlag).OpenFor _
      split_ifs
      · exact openFor_flag 2 (by decide)
      · exact ⟨rfl, rfl, by decide⟩
  constructor
  · obtain ⟨hor, hiff⟩ :=
      (trySend_allOrNothing (two (.flag 1) (.flag 2)) ⟨true⟩ fun id _ => hroom id).2 rfl
    refine hor.resolve_left fun h => ?_
    obtain ⟨id, -, hl⟩ := hiff.1 h
    have hl : (if id = 1 then BusReceiver.flag 1 else .flag 2).AtLimit := hl
    split_ifs at hl
    · exact absurd hl (by decide : ¬ (1 : ℤ) ≤ 0)
    · exact absurd hl (by decide : ¬ (2 : ℤ) ≤ 0)
  · refine ((trySend_allOrNothing (two (.flag 2) fullFlag) ⟨true⟩ fun id _ => hfull id).2 rfl).2.2
      ⟨2, by decide, ?_⟩
    show (1 : ℤ) ≤ 1
    exact le_refl _

/-- While the flag is set and the queues are still open the call returns neither `Full` nor `Ok`;
and a receiver of another type with the message's tag makes it panic. -/
theorem try_send_closed_or_panics :
    (¬ ∀ (b : LiveBus Flag NamedType) msg,
      (∀ id ∈ b.receiversOf (Message.typeTag msg), (b.receivers id).OpenFor msg) →
      b.GaveNone msg (b.trySend msg) ∨ b.GaveAll msg (b.trySend msg))
    ∧ (LiveBus.msg.trySend ⟨true, 7⟩).done = .panicked := by
  refine ⟨fun h => ?_, rfl⟩
  rcases h { one (.flag 1) with closed := true } ⟨true⟩
    (fun _ _ => openFor_flag 1 (by decide)) with h | h
  · cases h.1
  · cases h.1

end LiveBus

end MessageBus
