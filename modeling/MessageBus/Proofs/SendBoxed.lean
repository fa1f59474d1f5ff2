import MessageBus.Proofs.Broadcast
import MessageBus.Proofs.Operations

/-!
# Whom `send_boxed` delivers to

It unwraps a clone for every receiver it selects, and drops the result of each send. So it panics on
a message without clones as soon as it selects anyone, and it tells nobody of a receiver that
refuses its copy, or of the copies it has sent while it waits for one that gives no permit.
-/

namespace MessageBus

variable {S T : Type}

namespace LiveBus

section Step

variable [TypeTagged T] [DecidableEq T] [TypedMessage S T] {b b₁ : LiveBus S T}
  {env : CallSetting S} {ep : EntryPoint} {tt : TypeTag} {id j : UInt64} {msg : S}

/-- The receiver as it gives the operation its permit. -/
def permitted (b : LiveBus S T) (env : CallSetting S) (tt : TypeTag) (id : UInt64) :
    Option (BusReceiver S T) :=
  (env.later id (b.receivers id).slots).bind fun s => ((b.receivers id).withSlots s).tryReserve tt

/-- The receiver gives a permit, and takes the message with it. -/
def Hands (b : LiveBus S T) (env : CallSetting S) (tt : TypeTag) (msg : S) (id : UInt64) : Prop :=
  ∃ r, b.permitted env tt id = some r ∧ r.Accepts msg

omit [DecidableEq T] in
theorem permitted_congr (h : b₁.receivers id = b.receivers id) :
    b₁.permitted env tt id = b.permitted env tt id := by
  unfold permitted
  rw [h]

omit [DecidableEq T] in
theorem reserve_boxed :
    b.reserve env .sendBoxed id tt = (b.permitted env tt id).map (b.set id) := by
  simp only [reserve, permitted, Option.map_bind]
  rfl

theorem sendTo_boxed (msg : S) (r : BusReceiver S T) (mid : UInt64) :
    ∃ b₁ res, (b.set id r).sendTo .sendBoxed id mid msg false = (b₁, some res) ∧
      (∀ j, j ≠ id → b₁.receivers j = b.receivers j) ∧ (r.Accepts msg → res = .ok ()) ∧
      (¬ r.Accepts msg → ∃ err, res = .error err) := by
  have hne : ∀ (s : BusReceiver S T) j, j ≠ id → ((b.set id r).set id s).receivers j
      = b.receivers j := fun s j hj => by simp [set, hj]
  rcases r.send_cases .sendBoxed mid msg false with ⟨ha, s, h, -⟩ | ⟨hu, -⟩ |
    ⟨ha, -, s, err, h, -⟩
  · exact ⟨_, _, by simp only [sendTo, receivers_set, h], hne (r.withSlots s), fun _ => rfl,
      fun h => absurd ha h⟩
  · cases r with
    | typed => exact absurd rfl hu.2
    | relay => exact hu.elim
  · exact ⟨_, _, by simp only [sendTo, receivers_set, h], hne (r.withSlots s), fun h => absurd h ha,
      fun _ => ⟨err, rfl⟩⟩

/-- One receiver that gives its permit: its copy is accepted or not, and the others are as they
were. -/
theorem sendEach_cons (msg : S) {r : BusReceiver S T} (hr : b.permitted env tt id = some r)
    (mid : UInt64) (rs : List UInt64) :
    ∃ b₁ accepted, (∀ j, j ≠ id → b₁.receivers j = b.receivers j) ∧
      (r.Accepts msg → accepted = [(id, .request mid msg false)]) ∧
      (¬ r.Accepts msg → accepted = []) ∧
      (sendEach env .sendBoxed mid tt (some msg) b (id :: rs)).done
        = (sendEach env .sendBoxed mid tt (some msg) b₁ rs).done ∧
      (sendEach env .sendBoxed mid tt (some msg) b (id :: rs)).accepted
        = accepted ++ (sendEach env .sendBoxed mid tt (some msg) b₁ rs).accepted := by
  obtain ⟨b₁, res, hsend, hne, hok, herr⟩ := sendTo_boxed (b := b) msg r mid
  refine ⟨b₁, acceptedItem id mid msg false res, hne, fun ha => ?_, fun ha => ?_, ?_, ?_⟩
  · rw [hok ha]
    rfl
  · obtain ⟨err, rfl⟩ := herr ha
    rfl
  · simp only [sendEach, reserve_boxed, hr, Option.map_some, hsend]
  · simp only [sendEach, reserve_boxed, hr, Option.map_some, hsend]

/-- The call returns `Ok` or waits, and its log misses a receiver that does not take its copy. -/
theorem sendEach_boxed (env : CallSetting S) (tt : TypeTag) (msg : S) (mid : UInt64)
    {rs : List UInt64} (hn : rs.Nodup) :
    ((sendEach env .sendBoxed mid tt (some msg) b rs).done = .waiting ∨
        (sendEach env .sendBoxed mid tt (some msg) b rs).done = .returned (.ok ())) ∧
      (sendEach env .sendBoxed mid tt (some msg) b rs).accepted.length ≤ rs.length ∧
      ((∀ id ∈ rs, b.Hands env tt msg id) →
        (sendEach env .sendBoxed mid tt (some msg) b rs).accepted
          = rs.map fun id => (id, .request mid msg false)) ∧
      ((∃ id ∈ rs, ¬ b.Hands env tt msg id) →
        (sendEach env .sendBoxed mid tt (some msg) b rs).accepted.length < rs.length) := by
  induction rs generalizing b with
  | nil => simp [sendEach]
  | cons id rs ih =>
    obtain ⟨hid, hn⟩ := List.nodup_cons.1 hn
    rcases hr : b.permitted env tt id with - | r
    · -- No permit: the call waits here, and nobody behind has anything.
      have hself : ¬ b.Hands env tt msg id := by simp [Hands, hr]
      simp only [sendEach, reserve_boxed, hr, Option.map_none]
      refine ⟨.inl trivial, Nat.zero_le _, fun hh => absurd (hh id List.mem_cons_self) hself,
        fun _ => Nat.zero_lt_succ _⟩
    obtain ⟨b₁, accepted, hne, hyes, hno, hdone, hacc⟩ := sendEach_cons msg hr mid rs
    have hhands : ∀ j ∈ rs, (b₁.Hands env tt msg j ↔ b.Hands env tt msg j) := fun j hj => by
      rw [Hands, Hands, permitted_congr (hne j fun hji => hid (hji ▸ hj))]
    have hself : b.Hands env tt msg id ↔ r.Accepts msg := by simp [Hands, hr]
    obtain ⟨hret, hle, hall, hex⟩ := ih (b := b₁) hn
    have hlen : accepted.length ≤ 1 := by
      by_cases ha : r.Accepts msg
      · simp [hyes ha]
      · simp [hno ha]
    rw [hdone, hacc, List.length_append, List.length_cons]
    refine ⟨hret, by omega, fun hh => ?_, ?_⟩
    · rw [hyes (hself.1 (hh id List.mem_cons_self)),
        hall fun j hj => (hhands j hj).2 (hh j (List.mem_cons_of_mem id hj))]
      rfl
    · rintro ⟨j, hj, hnot⟩
      rcases List.mem_cons.1 hj with rfl | hj
      · rw [hno fun ha => hnot (hself.2 ha), List.length_nil]
        omega
      · have := hex ⟨j, hj, fun hh => hnot ((hhands j hj).1 hh)⟩
        omega

end Step

section SendBoxed

/-- The call does not panic; the one receiver selected has the message, and of several each has it,
or none has and the call says so. A call that waits for ever says nothing. -/
structure DeliversBoxed (o : CallOutcome S T) (rs : List UInt64) (mid : UInt64) (msg : S) :
    Prop where
  noPanic : o.done ≠ .panicked
  one : ∀ id, rs = [id] → o.accepted = [(id, .request mid msg false)]
  several : 2 ≤ rs.length →
    o.accepted.Perm (rs.map fun id => (id, .request mid msg false)) ∨
      (o.accepted = [] ∧ ∃ err, o.done = .returned (.error err))

/-- A call that neither panics nor fails owes every receiver its copy. -/
theorem deliversBoxed_iff_perm {o : CallOutcome S T} {rs : List UInt64} {mid : UInt64} {msg : S}
    (hne : rs ≠ []) (h : o.done = .waiting ∨ o.done = .returned (.ok ())) :
    DeliversBoxed o rs mid msg
      ↔ o.accepted.Perm (rs.map fun id => (id, .request mid msg false)) := by
  refine ⟨fun hd => ?_, fun hp => ⟨?_, fun id hone => ?_, fun _ => .inl hp⟩⟩
  · rcases rs with - | ⟨first, - | ⟨second, rs⟩⟩
    · exact absurd rfl hne
    · exact .of_eq (hd.one first rfl)
    · rcases hd.several (by simp) with hp | ⟨-, err, herr⟩
      · exact hp
      · simp [herr] at h
  · rcases h with h | h <;> simp [h]
  · subst hone
    exact List.perm_singleton.1 hp

variable [TypeTagged T] [DecidableEq T] [TypedMessage S T]

/-- The receivers `send_boxed` selects. -/
def boxedReceivers (b : LiveBus S T) (msg : S) (options : SendOptions) : List UInt64 :=
  b.selectReceivers (Message.typeTag msg) options none none false

omit [DecidableEq T] in
theorem nodup_boxedReceivers (b : LiveBus S T) (msg : S) (options : SendOptions) :
    (b.boxedReceivers msg options).Nodup :=
  nodup_selectReceivers _ (Message.typeTag msg) options none none false

variable {b : LiveBus S T} {env : CallSetting S} {msg : S} {options : SendOptions}

theorem sendBoxed_of_nil (hb : b.closed = false) (h : b.boxedReceivers msg options = []) :
    b.sendBoxed env msg options = ⟨b.fetchId, [], .returned (.ok ())⟩ := by
  have h : b.fetchId.selectReceivers (Message.typeTag msg) options none none false = [] := h
  simp only [sendBoxed, hb, Bool.false_eq_true, if_false, h]

theorem sendBoxed_of_cons (hb : b.closed = false) {first : UInt64} {iter : List UInt64}
    (h : b.boxedReceivers msg options = first :: iter) :
    b.sendBoxed env msg options = sendEach env .sendBoxed b.idCounter (Message.typeTag msg)
      (tryCloneBoxed msg) b.fetchId (iter ++ [first]) := by
  have h : b.fetchId.selectReceivers (Message.typeTag msg) options none none false
      = first :: iter := h
  simp only [sendBoxed, hb, Bool.false_eq_true, if_false, h]

theorem sendBoxed_panics (hb : b.closed = false) (h : b.boxedReceivers msg options ≠ [])
    (hc : CloneMessage.tryClone msg = false) :
    (b.sendBoxed env msg options).done = .panicked := by
  obtain ⟨first, iter, hrs⟩ := List.exists_cons_of_ne_nil h
  obtain ⟨id, rs, hcons⟩ := List.exists_cons_of_ne_nil
    (List.append_ne_nil_of_right_ne_nil iter (List.cons_ne_nil first []))
  rw [sendBoxed_of_cons hb hrs, hcons]
  simp [tryCloneBoxed, hc, sendEach]

/-- On an open bus `send_boxed` keeps its word exactly where it selects nobody, or where the message
has clones and every receiver gives its permit and takes its copy. -/
theorem deliversBoxed_iff (b : LiveBus S T) (env : CallSetting S) (hb : b.closed = false) (msg : S)
    (options : SendOptions) :
    DeliversBoxed (b.sendBoxed env msg options) (b.boxedReceivers msg options) b.idCounter msg
      ↔ b.boxedReceivers msg options = [] ∨ (CloneMessage.tryClone msg = true ∧
        ∀ id ∈ b.boxedReceivers msg options, b.Hands env (Message.typeTag msg) msg id) := by
  rcases hrs : b.boxedReceivers msg options with - | ⟨first, iter⟩
  · rw [sendBoxed_of_nil hb hrs]
    exact iff_of_true ⟨nofun, nofun, nofun⟩ (.inl rfl)
  by_cases hc : CloneMessage.tryClone msg = true
  swap
  · refine iff_of_false (fun h => h.noPanic ?_) fun h => ?_
    · exact sendBoxed_panics hb (by simp [hrs]) (by simpa using hc)
    · rcases h with h | h
      · cases h
      · exact hc h.1
  have hperm : (iter ++ [first]).Perm (first :: iter) := List.perm_append_singleton first iter
  have hn : (iter ++ [first]).Nodup :=
    hperm.nodup_iff.2 (hrs ▸ nodup_boxedReceivers b msg options)
  obtain ⟨hret, -, hall, hex⟩ :=
    sendEach_boxed (b := b.fetchId) env (Message.typeTag msg) msg b.idCounter hn
  rw [sendBoxed_of_cons hb hrs, tryCloneBoxed, if_pos hc,
    deliversBoxed_iff_perm (List.cons_ne_nil first iter) hret]
  simp only [reduceCtorEq, hc, true_and, false_or, ← hperm.mem_iff]
  refine ⟨fun hp => ?_, fun hh => ?_⟩
  · -- A receiver that does not take its copy leaves the log too short.
    by_contra hnot
    push Not at hnot
    have hlt := hex hnot
    rw [hp.length_eq, List.length_map, hperm.length_eq] at hlt
    exact lt_irrefl _ hlt
  · rw [hall hh]
    exact hperm.map _

end SendBoxed

/-- Two receivers that have room each get a copy. -/
theorem deliversBoxed_iff_two_flags :
    DeliversBoxed ((two (.flag 1) (.flag 1)).sendBoxed (.quiet none 0) ⟨true⟩ .broadcast)
      ((two (.flag 1) (.flag 1)).boxedReceivers ⟨true⟩ .broadcast) 2 (⟨true⟩ : Flag) := by
  refine (deliversBoxed_iff (two (.flag 1) (.flag 1)) (.quiet none 0) rfl ⟨true⟩ .broadcast).2
    (.inr ⟨rfl, fun id hid => ?_⟩)
  have hid : id ∈ [1, 2] := hid
  simp only [List.mem_cons, List.not_mem_nil, or_false] at hid
  rcases hid with rfl | rfl
  · exact ⟨_, rfl, rfl, rfl⟩
  · exact ⟨_, rfl, rfl, rfl⟩

end LiveBus

/-- A message type derived without `clone` and `shared`. -/
structure Parcel where
  number : ℕ
  deriving DecidableEq

instance : CloneMessage Parcel where
  typeTag _ := "app::Parcel"
  isShared _ := false
  tryClone _ := false

instance : TypedMessage Parcel NamedType where
  typeId _ := ⟨"app::Parcel"⟩
  typeTag_eq _ := rfl

namespace LiveBus

/-- A bus with one local receiver of `Parcel`, of limit 1. -/
def parcel : LiveBus Parcel NamedType :=
  one (.typed ⟨⟨"app::Parcel"⟩, ⟨"()"⟩, ⟨"app::Err"⟩⟩ ⟨.empty, .new 1 true⟩ false [])

/-- `send_boxed` panics where `send_boxed_one` delivers. -/
theorem send_boxed_needs_clone :
    (¬ ∀ (b : LiveBus Parcel NamedType) env msg options, b.closed = false →
      DeliversBoxed (b.sendBoxed env msg options) (b.boxedReceivers msg options) b.idCounter msg)
    ∧ (parcel.sendBoxedOne (.quiet none 0) ⟨7⟩ .broadcast).accepted
      = [(1, .request 1 ⟨7⟩ false)] := by
  refine ⟨fun h => (h parcel (.quiet none 0) ⟨7⟩ .broadcast rfl).noPanic ?_, by decide⟩
  exact sendBoxed_panics rfl (by decide) rfl

end LiveBus

end MessageBus
