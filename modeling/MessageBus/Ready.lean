import MessageBus.Relay

/-!
# Callers of `ready`

`Receiver::ready` of `src/receiver.rs`, beside the event loop of a local receiver or of a relay. On
`Ready` and on `InitFailed` the loop first notifies `ready` and then stores `ready_flag`, two steps
of `readyCallers`; a caller makes its `Notified`, loads the flag and awaits. The events come in any
order, and whatever else happens to the receiver leaves the flag and the loop as they are.
-/

namespace MessageBus

/-- Before the load of the flag, past a load that found it unset, among the waiters, or past the
call. -/
inductive ReadyStage where
  | created
  | unready
  | parked
  | returned
  deriving DecidableEq, Repr

structure ReadyCall where
  stage : ReadyStage
  /-- Its `Notified` is complete. -/
  notified : Bool
  deriving DecidableEq, Repr

/-- `notify_waiters` completes the `Notified`s that are there. -/
def ReadyCall.notify (c : ReadyCall) : ReadyCall :=
  if c.stage = .returned then c else { c with notified := true }

/-- What the callers see of a receiver and of its event loop. -/
structure ReadyView (σ M E : Type) where
  isReady : σ → Bool
  loop : σ → Loop
  /-- One turn of the loop. -/
  turn : σ → Event M E → σ
  /-- The turn begins with `ready.notify_waiters`. -/
  rings : σ → Event M E → Bool

structure ReadyState (σ M E : Type) where
  receiver : σ
  /-- The event of the turn that is past its `notify_waiters` and not past its store. -/
  handling : Option (Event M E)
  /-- The event of the last turn that is over. -/
  latest : Option (Event M E)
  calls : List ReadyCall

inductive ReadyLabel (σ M E : Type) where
  | start
  | isReady (i : ℕ)
  /-- The first poll of the `Notified`. -/
  | poll (i : ℕ)
  /-- A call that is parked is polled again, with its notification. -/
  | resume (i : ℕ)
  | notifyWaiters (ev : Event M E)
  | store
  /-- A turn that notifies nobody of `ready`. -/
  | turn (ev : Event M E)
  | other (receiver : σ)

section Callers

variable {σ M E : Type} (V : ReadyView σ M E)

namespace ReadyState

def set (s : ReadyState σ M E) (i : ℕ) (c : ReadyCall) : ReadyState σ M E :=
  { s with calls := s.calls.set i c }

def step (s : ReadyState σ M E) : ReadyLabel σ M E → Option (ReadyState σ M E)
  | .start => some { s with calls := s.calls ++ [⟨.created, false⟩] }
  | .isReady i =>
    match s.calls[i]? with
    | some ⟨.created, notified⟩ =>
      some (s.set i ⟨if V.isReady s.receiver then .returned else .unready, notified⟩)
    | _ => none
  | .poll i =>
    match s.calls[i]? with
    | some ⟨.unready, notified⟩ =>
      some (s.set i ⟨if notified then .returned else .parked, notified⟩)
    | _ => none
  | .resume i =>
    match s.calls[i]? with
    | some ⟨.parked, true⟩ => some (s.set i ⟨.returned, true⟩)
    | _ => none
  | .notifyWaiters ev =>
    if V.loop s.receiver = .running ∧ s.handling.isNone ∧ V.rings s.receiver ev then
      some { s with handling := some ev, calls := s.calls.map .notify }
    else none
  | .store => s.handling.map fun ev =>
      { s with receiver := V.turn s.receiver ev, handling := none, latest := some ev }
  | .turn ev =>
    if V.loop s.receiver = .running ∧ s.handling.isNone ∧ !V.rings s.receiver ev then
      some { s with receiver := V.turn s.receiver ev, latest := some ev }
    else none
  | .other receiver =>
    if V.isReady receiver = V.isReady s.receiver ∧ V.loop receiver = V.loop s.receiver then
      some { s with receiver }
    else none

end ReadyState

/-- A receiver, its event loop and the callers of `ready`. -/
def readyCallers (receiver : σ) : Lts (ReadyState σ M E) (ReadyLabel σ M E) where
  start := ⟨receiver, none, none, []⟩
  step s l := s.step V l

end Callers

/-- The loop of a local receiver, each turn with what the last one has left. -/
def localReady {R E B : Type} [StdSyncSendError E] (intoBoxed : R → B) :
    ReadyView (Turn R E B) R E where
  isReady t := t.wrapper.context.readyFlag
  loop t := t.loop
  turn t ev := handleEvent intoBoxed t.wrapper t.chans ev
  rings t ev := .ready ∈ (handleEvent intoBoxed t.wrapper t.chans ev).wakes

def localReadyCallers {R E B : Type} [StdSyncSendError E] (intoBoxed : R → B) (limit : UInt64) :
    Lts (ReadyState (Turn R E B) R E) (ReadyLabel (Turn R E B) R E) :=
  readyCallers (localReady intoBoxed)
    ⟨⟨.empty, .new limit true⟩, fun _ => .waiting, [], .running⟩

/-- The loop of a relay. -/
def relayReady (B : Type) [Message B] : ReadyView (RelayTurn B) B GenericError where
  isReady t := t.wrapper.context.readyFlag
  loop t := t.loop
  turn t ev := t.wrapper.handleEvent t.chans ev
  rings t ev := .ready ∈ (t.wrapper.handleEvent t.chans ev).wakes

def relayReadyCallers (B : Type) [Message B] :
    Lts (ReadyState (RelayTurn B) B GenericError) (ReadyLabel (RelayTurn B) B GenericError) :=
  readyCallers (relayReady B) ⟨.new, fun _ => .waiting, [], .running⟩

end MessageBus
