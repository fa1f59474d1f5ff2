import MessageBus.Lib.Notify
import MessageBus.Relay
import MessageBus.Served

/-!
# Callers of `flush` and `sync`

`Receiver::flush` and `Receiver::sync` of `src/receiver.rs`, for a local receiver and for a relay.
A caller makes its `Notified`, pushes its action and awaits; a `Flushed` gives one notification and
a `Synchronized` one to each `Notified` there is. `callers` runs any number of them beside a
receiver, whose own steps are the labels of its system.
-/

namespace MessageBus

inductive BarrierKind where
  | flush
  | sync
  deriving DecidableEq, Repr

def BarrierKind.action : BarrierKind → Action
  | flush => .flush
  | sync => .sync

/-- Before the push, past it, among the waiters, or past the call; a push that is refused ends the
call with a warning. -/
inductive CallerStage where
  | created
  | pushed
  | parked
  | returned
  | refused
  deriving DecidableEq, Repr

structure Caller where
  kind : BarrierKind
  /-- How many items the receiver had accepted when the call began. -/
  since : ℕ
  stage : CallerStage
  /-- A notification was delivered to its `Notified`. -/
  notified : Bool
  deriving DecidableEq, Repr

/-- A notification is delivered, if the `Notified` is still there. -/
def Caller.notify (c : Caller) : Caller :=
  match c.stage with
  | .returned | .refused => c
  | _ => { c with notified := true }

/-- What the callers see of a receiver. -/
structure CallersView (σ ℓ : Type) where
  /-- The step that pushes an action. -/
  push : Action → ℓ
  /-- The step pushes the action of a call. -/
  calls : ℓ → Bool
  /-- How many items were accepted so far. -/
  accepted : σ → ℕ
  /-- The kind of call a step of the event loop gives notifications for. -/
  rings : σ → ℓ → Option BarrierKind

structure CallersState (σ : Type) where
  receiver : σ
  /-- `context.flushed`. -/
  flushed : Notify ℕ
  calls : List Caller

inductive CallersLabel (ℓ : Type) where
  /-- A call makes its `Notified`. -/
  | start (kind : BarrierKind)
  | push (i : ℕ)
  /-- The first poll of the `Notified`. -/
  | poll (i : ℕ)
  /-- A call that is parked is polled again, with a notification. -/
  | resume (i : ℕ)
  /-- The receiver, its senders or its event loop take a step. -/
  | step (l : ℓ)

section Callers

variable {σ ℓ : Type} (R : Lts σ ℓ) (V : CallersView σ ℓ)

namespace CallersState

def set (s : CallersState σ) (i : ℕ) (c : Caller) : CallersState σ :=
  { s with calls := s.calls.set i c }

/-- `flushed.notify_one` or `synchronized.notify_waiters`. -/
def ring (s : CallersState σ) : BarrierKind → CallersState σ
  | .flush =>
    let (flushed, woken) := s.flushed.notifyOne
    { s with
      flushed
      calls := woken.foldl (fun calls i => calls.modify i .notify) s.calls }
  | .sync =>
    { s with calls := s.calls.map fun c => if c.kind = .sync then c.notify else c }

def step (s : CallersState σ) : CallersLabel ℓ → Option (CallersState σ)
  | .start kind =>
    some { s with calls := s.calls ++ [⟨kind, V.accepted s.receiver, .created, false⟩] }
  | .push i =>
    match s.calls[i]? with
    | some ⟨kind, since, .created, notified⟩ =>
      match R.step s.receiver (V.push kind.action) with
      | some receiver => some { s.set i ⟨kind, since, .pushed, notified⟩ with receiver }
      | none => some (s.set i ⟨kind, since, .refused, notified⟩)
    | _ => none
  | .poll i =>
    match s.calls[i]? with
    | some ⟨.flush, since, .pushed, notified⟩ =>
      let (flushed, ready) := s.flushed.notified i
      some { s.set i ⟨.flush, since, if ready then .returned else .parked, notified⟩ with flushed }
    | some ⟨.sync, since, .pushed, notified⟩ =>
      some (s.set i ⟨.sync, since, if notified then .returned else .parked, notified⟩)
    | _ => none
  | .resume i =>
    match s.calls[i]? with
    | some ⟨kind, since, .parked, true⟩ => some (s.set i ⟨kind, since, .returned, true⟩)
    | _ => none
  | .step l =>
    if V.calls l then none
    else (R.step s.receiver l).map fun receiver =>
      match V.rings s.receiver l with
      | some kind => { s with receiver }.ring kind
      | none => { s with receiver }

end CallersState

/-- A receiver with its callers. -/
def callers : Lts (CallersState σ) (CallersLabel ℓ) where
  start := ⟨R.start, .new, []⟩
  step s l := s.step R V l

end Callers

def Wake.call? : Wake → Option BarrierKind
  | .flushedOne => some .flush
  | .synchronized => some .sync
  | _ => none

section Local

variable {M R E B σ ℓ : Type} [StdSyncSendError E] (intoBoxed : R → B) (limit : UInt64)
  (P : Lts σ (PollerLabel M ℓ)) (V : PollerView σ R E) (accepted : σ → List (Request M))

/-- The notification for calls in the turn that is next. -/
def ServedState.rings (s : ServedState σ R E B) : Option BarrierKind :=
  (V.stx s.poller)[s.heard]?.bind fun ev =>
    (handleEvent intoBoxed s.wrapper s.chans ev).wakes.findSome? Wake.call?

/-- The callers of a local receiver. -/
def servedView : CallersView (ServedState σ R E B) (ServedLabel M ℓ) where
  push a := .push (.action a)
  calls
    | .push (.action .flush) | .push (.action .sync) => true
    | _ => false
  accepted s := (accepted s.poller).length
  rings s
    | .turn => s.rings intoBoxed V
    | _ => none

/-- A receiver around the poller `P` with its callers. -/
def servedCallers :
    Lts (CallersState (ServedState σ R E B)) (CallersLabel (ServedLabel M ℓ)) :=
  callers (servedReceiver intoBoxed limit P V) (servedView intoBoxed V accepted)

end Local

section Remote

variable {B : Type} [Message B]

/-- A relay with the queue its actions go to. -/
structure RelayHost (B : Type) where
  relay : RelayState B
  /-- The queue has lost its receiving half. -/
  closed : Bool
  /-- The actions the queue has taken so far. -/
  actions : List Action
  /-- How many `Flushed`s the loop has handled. -/
  flushed : ℕ

inductive RelayHostLabel (B : Type) where
  | action (a : Action)
  | shut
  | relay (l : RelayLabel B)

def RelayWake.call? : RelayWake → Option BarrierKind
  | .flushedOne => some .flush
  | .synchronized => some .sync
  | _ => none

namespace RelayHost

def rings (s : RelayHost B) : RelayLabel B → Option BarrierKind
  | .event ev => (s.relay.wrapper.handleEvent s.relay.chans ev).wakes.findSome? RelayWake.call?
  | _ => none

def step (s : RelayHost B) : RelayHostLabel B → Option (RelayHost B)
  | .action a => if s.closed then none else some { s with actions := s.actions ++ [a] }
  | .shut => some { s with closed := true }
  | .relay l => (s.relay.step l).map fun relay =>
      { s with relay, flushed := s.flushed + if s.rings l = some .flush then 1 else 0 }

end RelayHost

/-- A relay, whose peer sends what it likes, with the actions pushed to it. -/
def relayHost (B : Type) [Message B] : Lts (RelayHost B) (RelayHostLabel B) where
  start := ⟨.start, false, [], 0⟩
  step := RelayHost.step

/-- The callers of a relay. -/
def relayView (B : Type) [Message B] : CallersView (RelayHost B) (RelayHostLabel B) where
  push := .action
  calls
    | .action .flush | .action .sync => true
    | _ => false
  accepted s := s.actions.length
  rings s
    | .relay l => s.rings l
    | _ => none

def relayCallers (B : Type) [Message B] :
    Lts (CallersState (RelayHost B)) (CallersLabel (RelayHostLabel B)) :=
  callers (relayHost B) (relayView B)

end Remote

end MessageBus
