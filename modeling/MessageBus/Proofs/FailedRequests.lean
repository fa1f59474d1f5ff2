import MessageBus.Proofs.Operations

/-!
# The waiters of failed requests

A request enters its waiter before it decodes, reserves and sends, and no early return takes it out
again. So a call leaves the tables as they were exactly where nothing after the insertion fails.
-/

namespace MessageBus

variable {S T : Type}

namespace BusReceiver

theorem slots_withSlots_congr {r r' : BusReceiver S T} (hs : r'.slots = r.slots)
    (hsh : r'.shape = r.shape) (s : SlotReceiver S) :
    (r'.withSlots s).slots = (r.withSlots s).slots := by
  cases r <;> cases r' <;> cases s <;> first | exact hs | rfl | cases hsh

end BusReceiver

variable [TypeTagged T] [DecidableEq T] [TypedMessage S T]

namespace LiveBus

variable {b : LiveBus S T} {env : CallSetting S} {ep : EntryPoint} {tt : TypeTag} {id : UInt64}

/-- The receiver gives its permit, and then makes an error of the message. -/
def Refuses (b : LiveBus S T) (env : CallSetting S) (ep : EntryPoint) (id : UInt64) (tt : TypeTag)
    (msg : S) : Prop :=
  ∃ b', b.reserve env ep id tt = some b' ∧ ¬ (b'.receivers id).Accepts msg ∧
    ¬ (b'.receivers id).Unwraps ep msg

theorem sendRequest_fails_iff {key : Slab.Key} {req : S}
    {conv : Error S GenericError → Option (Error S GenericError)}
    (hconv : ∀ err : Error S GenericError, err.mapErrUnimplemented = some err →
      (conv err).isSome) :
    (∃ err, (b.sendRequest env id ep tt key req conv).done = .returned (.error err))
      ↔ b.Refuses env ep id tt req := by
  unfold sendRequest Refuses
  cases hb : b.reserve env ep id tt with
  | none => simp
  | some b₁ =>
    simp only [Option.some.injEq, exists_eq_left']
    rcases (b₁.receivers id).send_cases ep (requestMid key) req true with ⟨ha, s, h, -⟩ |
      ⟨hu, h⟩ | ⟨ha, hu, s, err, h, -, herr⟩
    · simp [sendTo, h, ha]
    · simp only [sendTo, h, hu, not_true_eq_false, and_false, iff_false]
      split_ifs <;> simp
    · obtain ⟨err', herr'⟩ := Option.isSome_iff_exists.1 (hconv err herr)
      simp [sendTo, h, ha, hu, herr', CallEnd.failed]

omit [DecidableEq T] in
/-- A reservation looks at nothing of the receiver but its counters, its queue and its types. -/
theorem reserve_of_slots {b₁ b₂ b' : LiveBus S T}
    (hs : (b₂.receivers id).slots = (b₁.receivers id).slots)
    (hsh : (b₂.receivers id).shape = (b₁.receivers id).shape)
    (h : b₁.reserve env ep id tt = some b') :
    ∃ b'', b₂.reserve env ep id tt = some b'' ∧
      (b''.receivers id).slots = (b'.receivers id).slots ∧
      (b''.receivers id).shape = (b'.receivers id).shape := by
  unfold reserve at h
  split_ifs at h with hep
  · cases h
    exact ⟨b₂, by simp [reserve, hep], hs, hsh⟩
  · obtain ⟨s, hlater, h⟩ := Option.bind_eq_some_iff.1 h
    obtain ⟨r, hr, rfl⟩ := Option.map_eq_some_iff.1 h
    obtain ⟨s', hs', rfl⟩ := Option.map_eq_some_iff.1 hr
    have h₁ := BusReceiver.slots_withSlots_congr hs hsh s
    have hsh₁ : ((b₂.receivers id).withSlots s).shape = ((b₁.receivers id).withSlots s).shape := by
      simpa using hsh
    have h₂ := BusReceiver.slots_withSlots_congr h₁ hsh₁ s'
    refine ⟨b₂.set id (((b₂.receivers id).withSlots s).withSlots s'), ?_, ?_, ?_⟩
    · simp [reserve, hep, hs, hlater, BusReceiver.tryReserve, h₁, hs']
    · simpa only [receivers_set] using h₂
    · simpa using hsh

theorem refuses_of_slots {b₁ b₂ : LiveBus S T} {msg : S}
    (hs : (b₂.receivers id).slots = (b₁.receivers id).slots)
    (hsh : (b₂.receivers id).shape = (b₁.receivers id).shape)
    (h : b₁.Refuses env ep id tt msg) : b₂.Refuses env ep id tt msg := by
  obtain ⟨b', hb', ha, hu⟩ := h
  obtain ⟨b'', hb'', hs', hsh'⟩ := reserve_of_slots hs hsh hb'
  exact ⟨b'', hb'', by rwa [BusReceiver.Accepts, hs', BusReceiver.isM_of_shape hsh'],
    by rwa [BusReceiver.Unwraps, hs', BusReceiver.isM_of_shape hsh']⟩

theorem refuses_set_iff {r : BusReceiver S T} {msg : S} (hs : r.slots = (b.receivers id).slots)
    (hsh : r.shape = (b.receivers id).shape) :
    (b.set id r).Refuses env ep id tt msg ↔ b.Refuses env ep id tt msg := by
  refine ⟨refuses_of_slots ?_ ?_, refuses_of_slots ?_ ?_⟩ <;> simp [set, hs, hsh]

end LiveBus

/-- A call that fails leaves every waiter table as it was. -/
def CallOutcome.LeavesNone (o : CallOutcome S T) (b : LiveBus S T) : Prop :=
  (∃ err, o.done = .returned (.error err)) → ∀ id, (o.bus.receivers id).waiters
    = (b.receivers id).waiters

omit [TypeTagged T] [DecidableEq T] [TypedMessage S T] in
theorem LiveBus.Frame.leavesNone {b : LiveBus S T} {o : CallOutcome S T} (h : b.Frame o.bus) :
    o.LeavesNone b :=
  fun _ => h.waiters

variable {c : Codec S} {env : CallSetting S} {b : LiveBus S T}

omit [TypeTagged T] [DecidableEq T] [TypedMessage S T] in
/-- A request leaves its waiter exactly where it has entered one and fails after it. -/
theorem leavesNone_listen_iff {rc : UInt64} {resp e : Option T} {kind : WaiterKind}
    {w : Option (Except (Error Unit GenericError) (Slab.Key × BusReceiver S T))}
    (hw : (b.receivers rc).IsWaiter env.key env.tx resp e kind w)
    {conv : Error Unit GenericError → Option (Error S GenericError)}
    {next : LiveBus S T → Slab.Key → CallOutcome S T}
    (hnext : ∀ (b : LiveBus S T) (k : Slab.Key), b.Frame (next b k).bus) {fails : Prop}
    (hfails : ∀ r k, r.slots = (b.receivers rc).slots → r.shape = (b.receivers rc).shape →
      ((∃ err, (next (b.set rc r) k).done = .returned (.error err)) ↔ fails)) :
    (b.listen rc w conv next).LeavesNone b
      ↔ ¬ ((b.receivers rc).ListensFor resp e ∧ (b.receivers rc).HasRoom env.key ∧ fails) := by
  rcases LiveBus.listen_cases hw conv next with ⟨hl, h⟩ | ⟨-, hr, h⟩ |
    ⟨hl, k, r, hk, hnone, hsome, hslots, hshape, h⟩
  · rw [h]
    exact ⟨fun _ h => hl h.1, fun _ => (LiveBus.Frame.refl b).leavesNone⟩
  · rw [h]
    exact ⟨fun _ h => hr h.2.1, fun _ => (LiveBus.Frame.refl b).leavesNone⟩
  · rw [h]
    refine ⟨fun hleaves hf => ?_, fun hf herr => ?_⟩
    · have hkept := congrFun (hleaves ((hfails r k hslots hshape).2 hf.2.2) rc) k
      rw [(hnext (b.set rc r) k).waiters rc, LiveBus.receivers_set, hnone] at hkept
      rw [hsome] at hkept
      cases hkept
    · exact absurd ⟨hl, ⟨k, hk, hnone⟩, (hfails r k hslots hshape).1 herr⟩ hf

section Deserialize

variable (c : Codec S) (tt : TypeTag) (de : Backend × List UInt8)

/-- The payload's type is not registered, or its loader fails on it. -/
def Undecodable : Prop := c.registered tt = false ∨ ∃ text, c.decode de.1 tt de.2 = .error text

def Decodes (msg : S) : Prop := c.registered tt = true ∧ c.decode de.1 tt de.2 = .ok msg

variable {c tt de}

omit [TypeTagged T] [DecidableEq T] [TypedMessage S T] in
theorem deserialized_fails_iff {next : S → CallOutcome S T} :
    (∃ err, (b.deserialized c tt de next).done = .returned (.error err)) ↔ Undecodable c tt de ∨
      ∃ msg, Decodes c tt de msg ∧ ∃ err, (next msg).done = .returned (.error err) := by
  unfold LiveBus.deserialized deserializeSharedMessage Undecodable Decodes
  cases hr : c.registered tt with
  | false => simp
  | true =>
    cases hd : c.decode de.1 tt de.2 with
    | error text => simp [Error.specify]
    | ok msg => simp

omit [TypeTagged T] [DecidableEq T] [TypedMessage S T] in
theorem frame_deserialized {next : S → CallOutcome S T} (h : ∀ msg, b.Frame (next msg).bus) :
    b.Frame (b.deserialized c tt de next).bus := by
  unfold LiveBus.deserialized
  split
  · exact h _
  · exact .refl b
  · exact .refl b

end Deserialize

/-- The request's receiver has the types and the room for its waiter. -/
def LiveBus.Enters (b : LiveBus S T) (env : CallSetting S) (rc : UInt64) (resp e : Option T) :
    Prop :=
  (b.receivers rc).ListensFor resp e ∧ (b.receivers rc).HasRoom env.key

/-- A request enters its waiter, and then its payload cannot be decoded or its receiver makes an
error of the message. -/
def Operation.FailsLate (c : Codec S) (env : CallSetting S) (b : LiveBus S T) :
    Operation S T → Prop
  | request req options resp =>
    let tid := TypeTagged.typeTag_ (TypedMessage.typeId req)
    ∃ rc ∈ (b.selectReceivers tid options (some (TypeTagged.typeTag_ resp)) none true).head?,
      b.Enters env rc (some resp) none ∧ b.Refuses env .send rc tid req
  | requestWe req options resp e =>
    let tid := TypeTagged.typeTag_ (TypedMessage.typeId req)
    ∃ rc ∈ (b.selectReceivers tid options (some (TypeTagged.typeTag_ resp))
        (some (TypeTagged.typeTag_ e)) true).head?,
      b.Enters env rc (some resp) (some e) ∧ b.Refuses env .send rc tid req
  | requestBoxed req options => b.closed = false ∧
    ∃ rc ∈ (b.selectReceivers (Message.typeTag req) options none none true).head?,
      b.Enters env rc none none ∧ b.Refuses env .sendBoxed rc (Message.typeTag req) req
  | requestBoxedWe req options e => b.closed = false ∧
    ∃ rc ∈ (b.selectReceivers (Message.typeTag req) options none
        (some (TypeTagged.typeTag_ e)) true).head?,
      b.Enters env rc none (some e) ∧ b.Refuses env .sendBoxed rc (Message.typeTag req) req
  | requestDeserialize tt de options => b.closed = false ∧
    ∃ rc ∈ (b.selectReceivers tt options none none true).head?, b.Enters env rc none none ∧
      (Undecodable c tt de ∨ ∃ msg, Decodes c tt de msg ∧ b.Refuses env .sendBoxed rc tt msg)
  | _ => False

namespace Operation

theorem leavesNone_of_closed (hb : b.closed = true) {op : Operation S T}
    (hop : op.checksClosed = true) : (op.run c env b).LeavesNone b := by
  obtain ⟨err, h⟩ := run_of_checksClosed c env hb hop
  rw [h]
  exact (LiveBus.Frame.refl b).leavesNone

/-- What a request that goes on to reserve and send after its waiter leaves. -/
theorem leavesNone_request_iff {rc : UInt64} {resp e : Option T} {kind : WaiterKind}
    {w : Option (Except (Error Unit GenericError) (Slab.Key × BusReceiver S T))}
    (hw : (b.receivers rc).IsWaiter env.key env.tx resp e kind w)
    {conv : Error Unit GenericError → Option (Error S GenericError)} {ep : EntryPoint}
    {tt : TypeTag} {req : S} {conv' : Error S GenericError → Option (Error S GenericError)}
    (hconv : ∀ err : Error S GenericError, err.mapErrUnimplemented = some err →
      (conv' err).isSome) :
    (b.listen rc w conv fun b key => b.sendRequest env rc ep tt key req conv').LeavesNone b
      ↔ ¬ (b.Enters env rc resp e ∧ b.Refuses env ep rc tt req) := by
  rw [leavesNone_listen_iff hw (fun _ _ => LiveBus.frame_sendRequest) fun r k hs hsh =>
    (LiveBus.sendRequest_fails_iff hconv).trans (LiveBus.refuses_set_iff hs hsh), LiveBus.Enters,
    and_assoc]

theorem failsLate_iff {op : Operation S T} {a : RequestCall S T} (ha : op.requestCall = some a) :
    op.FailsLate c env b ↔ (op.checksClosed = true → b.closed = false) ∧
      ∃ rc ∈ a.selected b, b.Enters env rc a.resp a.e ∧ b.Refuses env a.ep rc a.tt a.req := by
  cases op with
  | request | requestWe | requestBoxed | requestBoxedWe =>
    cases ha
    simp [FailsLate, RequestCall.selected, checksClosed]
  | _ => cases ha

theorem leavesNone_requestCall_iff {op : Operation S T} {a : RequestCall S T}
    (ha : op.requestCall = some a) : (op.run c env b).LeavesNone b ↔ ¬ op.FailsLate c env b := by
  rw [failsLate_iff ha]
  by_cases hb : op.checksClosed = true → b.closed = false
  · rcases run_requestCall c env hb ha with ⟨hsel, hrun⟩ |
      ⟨rc, w, conv, conv', hsel, hw, -, hconv, hrun⟩
    · rw [hrun, hsel]
      exact iff_of_true (LiveBus.Frame.refl b).leavesNone (by simp)
    · rw [hrun, leavesNone_request_iff hw hconv, hsel, and_iff_right hb]
      simp
  · have hclosed := Classical.not_imp.1 hb
    exact iff_of_true (leavesNone_of_closed (by simpa using hclosed.2) hclosed.1)
      fun h => hb h.1

/-- A failed call leaves every waiter table as it was exactly where it does not fail late. -/
theorem leavesNone_iff (c : Codec S) (env : CallSetting S) (b : LiveBus S T)
    (op : Operation S T) : (op.run c env b).LeavesNone b ↔ ¬ op.FailsLate c env b := by
  cases op with
  | request | requestWe | requestBoxed | requestBoxedWe => exact leavesNone_requestCall_iff rfl
  | requestDeserialize tt de options =>
    by_cases hb : b.closed = true
    · exact iff_of_true (leavesNone_of_closed hb rfl) fun h => absurd h.1 (by simp [hb])
    · have hb : b.closed = false := by simpa using hb
      simp only [FailsLate, run, LiveBus.requestDeserialize, hb, Bool.false_eq_true, if_false,
        true_and]
      split
      · rename_i rc rs h
        have hplain : ∀ err : Error S GenericError, err.mapErrUnimplemented = some err →
            (some err).isSome := fun _ _ => rfl
        rw [leavesNone_listen_iff BusReceiver.isWaiter_boxed
          (fun b k => frame_deserialized fun msg => LiveBus.frame_sendRequest) fun r k hs hsh =>
          deserialized_fails_iff.trans (or_congr_right (exists_congr fun msg => and_congr_right
            fun _ => (LiveBus.sendRequest_fails_iff hplain).trans
              (LiveBus.refuses_set_iff hs hsh)))]
        simp [h, LiveBus.Enters, and_assoc]
      · rename_i h
        simpa [h] using (LiveBus.Frame.refl b).leavesNone
  | _ => exact iff_of_true (frame_run rfl).leavesNone fun h => h

/-- A payload that its loader rejects leaves the waiter it was to be the request of. -/
theorem undecodable_request_leaves_waiter :
    ¬ ∀ (b : LiveBus Flag NamedType) env (op : Operation Flag NamedType),
      (op.run Flag.codec env b).LeavesNone b := fun h => by
  have hkept := h (.one (.flag 1)) (.quiet (some 0) 0)
    (requestDeserialize "app::Flag" (.cbor, [0x00]) .broadcast) ⟨_, rfl⟩ 1
  have hkey : some (⟨.boxed, 0⟩ : Waiter) = none := congrFun hkept 0
  cases hkey

end Operation

end MessageBus
