import MessageBus.Proofs.Operations

/-!
# Operations on a closed bus

Every operation looks at the closed flag before anything else, but for `request` and `request_we`,
which never do. These two still refuse where they find no receiver, or where the waiter table of
the one they find is full.
-/

namespace MessageBus

variable {S T : Type} [TypeTagged T] [DecidableEq T] [TypedMessage S T]

/-- The call ends with an error, and every receiver is as it was. -/
def CallOutcome.Refused (o : CallOutcome S T) (b : LiveBus S T) : Prop :=
  (∃ err, o.done = .returned (.error err)) ∧ o.bus.receivers = b.receivers

namespace Operation

/-- Where a typed request is turned away whatever the flag: the receiver it selects, if any, has the
waiter's types and no room in its table. -/
def TurnedAway (env : CallSetting S) (b : LiveBus S T) : Operation S T → Prop
  | request req options resp =>
    ∀ rc ∈ (b.selectReceivers (TypeTagged.typeTag_ (TypedMessage.typeId req)) options
      (some (TypeTagged.typeTag_ resp)) none true).head?,
      (b.receivers rc).ListensFor (some resp) none ∧ ¬ (b.receivers rc).HasRoom env.key
  | requestWe req options resp e =>
    ∀ rc ∈ (b.selectReceivers (TypeTagged.typeTag_ (TypedMessage.typeId req)) options
      (some (TypeTagged.typeTag_ resp)) (some (TypeTagged.typeTag_ e)) true).head?,
      (b.receivers rc).ListensFor (some resp) (some e) ∧ ¬ (b.receivers rc).HasRoom env.key
  | _ => False

variable {c : Codec S} {env : CallSetting S} {b : LiveBus S T}

omit [TypeTagged T] [DecidableEq T] [TypedMessage S T] in
/-- A request that enters its waiter leaves a receiver changed, whatever becomes of it. -/
theorem refused_listen_iff {rc : UInt64} {resp e : Option T} {kind : WaiterKind}
    {w : Option (Except (Error Unit GenericError) (Slab.Key × BusReceiver S T))}
    (hw : (b.receivers rc).IsWaiter env.key env.tx resp e kind w)
    {conv : Error Unit GenericError → Option (Error S GenericError)}
    (hconv : (conv .addListenerError).isSome)
    {next : LiveBus S T → Slab.Key → CallOutcome S T}
    (hnext : ∀ (b : LiveBus S T) (k : Slab.Key), b.Frame (next b k).bus) :
    (b.listen rc w conv next).Refused b
      ↔ (b.receivers rc).ListensFor resp e ∧ ¬ (b.receivers rc).HasRoom env.key := by
  obtain ⟨err, herr⟩ := Option.isSome_iff_exists.1 hconv
  rcases LiveBus.listen_cases hw conv next with ⟨hl, h⟩ | ⟨hl, hr, h⟩ |
    ⟨-, k, r, hk, hnone, hsome, -, -, h⟩
  · rw [h]
    exact ⟨fun ⟨⟨_, hd⟩, _⟩ => (nomatch hd), fun h => absurd h.1 hl⟩
  · rw [h, herr]
    exact ⟨fun _ => ⟨hl, hr⟩, fun _ => ⟨⟨err, rfl⟩, rfl⟩⟩
  · rw [h]
    refine ⟨fun hrec => ?_, fun hr => absurd ⟨k, hk, hnone⟩ hr.2⟩
    have hkept := congrFun ((hnext (b.set rc r) k).waiters rc) k
    rw [hrec.2, hnone] at hkept
    exact absurd hkept.symm (by simp [LiveBus.set, hsome])

/-- On a closed bus an operation is refused and changes nothing exactly where it looks at the flag,
finds no receiver, or finds one that has no room for its waiter. -/
theorem refused_iff (c : Codec S) (env : CallSetting S) (b : LiveBus S T) (hb : b.closed = true)
    (op : Operation S T) :
    (op.run c env b).Refused b ↔ op.checksClosed = true ∨ op.TurnedAway env b := by
  by_cases hop : op.checksClosed = true
  · obtain ⟨err, h⟩ := run_of_checksClosed c env hb hop
    rw [h]
    exact ⟨fun _ => .inl hop, fun _ => ⟨⟨err, rfl⟩, rfl⟩⟩
  · obtain ⟨a, ha, haway⟩ : ∃ a, op.requestCall = some a ∧ (op.TurnedAway env b ↔
        ∀ rc ∈ a.selected b, (b.receivers rc).ListensFor a.resp a.e ∧
          ¬ (b.receivers rc).HasRoom env.key) := by
      cases op with
      | request | requestWe => exact ⟨_, rfl, Iff.rfl⟩
      | _ => exact absurd rfl hop
    rw [haway, or_iff_right hop]
    rcases run_requestCall c env (fun h => absurd h hop) ha with ⟨hsel, hrun⟩ |
      ⟨rc, w, conv, conv', hsel, hw, hconv, -, hrun⟩
    · rw [hrun, hsel]
      exact iff_of_true ⟨⟨_, rfl⟩, rfl⟩ (by simp)
    · rw [hrun, refused_listen_iff hw hconv fun _ _ => LiveBus.frame_sendRequest, hsel]
      simp

/-- The bus of the one receiver of limit 1 once its flag is set. -/
def closedFlag : LiveBus Flag NamedType := { LiveBus.one (.flag 1) with closed := true }

theorem refused_iff_send :
    ((sendExt ⟨true⟩ .broadcast).run Flag.codec (.quiet none 0) closedFlag).Refused closedFlag :=
  (refused_iff Flag.codec (.quiet none 0) closedFlag rfl (sendExt ⟨true⟩ .broadcast)).2 (.inl rfl)

/-- A `request` on a closed bus enters its waiter and pushes its message. -/
theorem closed_bus_admits_request :
    (¬ ∀ (b : LiveBus Flag NamedType) env (op : Operation Flag NamedType), b.closed = true →
      (op.run Flag.codec env b).Refused b)
    ∧ ((request ⟨true⟩ .broadcast ⟨"()"⟩).run Flag.codec (.quiet (some 0) 0) closedFlag).accepted
      = [(1, .request (requestMid 0) ⟨true⟩ true)] := by
  refine ⟨fun h => ?_, by decide⟩
  obtain ⟨⟨err, herr⟩, -⟩ :=
    h closedFlag (.quiet (some 0) 0) (request ⟨true⟩ .broadcast ⟨"()"⟩) rfl
  cases herr

end Operation

end MessageBus
