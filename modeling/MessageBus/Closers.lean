import MessageBus.Callers

/-!
# Callers of `close`

`Receiver::close` of `src/receiver.rs` for a local receiver, as `Bus::close` of `src/lib.rs` calls
it. A caller makes its `Notified`, pushes `Close` and awaits; the event loop notifies every
`Notified` there is when it is over. `Bus::close` gives a call up after its timeout.
-/

namespace MessageBus

/-- Before the push, past it, among the waiters, or past the call; a push that is refused ends the
call with a warning. -/
inductive CloseStage where
  | created
  | pushed
  | parked
  | returned
  | refused
  | timedOut
  deriving DecidableEq, Repr

structure CloseCall where
  stage : CloseStage
  /-- A notification was delivered to its `Notified`. -/
  notified : Bool
  deriving DecidableEq, Repr

/-- The call is over, and its `Notified` is gone. -/
def CloseStage.over : CloseStage → Bool
  | created | pushed | parked => false
  | returned | refused | timedOut => true

def CloseCall.notify (c : CloseCall) : CloseCall :=
  if c.stage.over then c else { c with notified := true }

structure ClosersState (σ R E B : Type) where
  served : ServedState σ R E B
  calls : List CloseCall

inductive ClosersLabel (M ℓ : Type) where
  /-- A call makes its `Notified`. -/
  | start
  | push (i : ℕ)
  /-- The first poll of the `Notified`. -/
  | poll (i : ℕ)
  /-- A call that is parked is polled again, with a notification. -/
  | resume (i : ℕ)
  | timeout (i : ℕ)
  /-- The receiver, its senders or its event loop take a step. -/
  | serve (l : ServedLabel M ℓ)

section Closers

variable {M R E B σ ℓ : Type} [StdSyncSendError E] (intoBoxed : R → B) (limit : UInt64)
  (P : Lts σ (PollerLabel M ℓ)) (V : PollerView σ R E)

/-- The step notifies `context.closed`. -/
def ServedState.ringsClosed (s : ServedState σ R E B) : ServedLabel M ℓ → Bool
  | .endStream => true
  | .turn => (V.stx s.poller)[s.heard]?.any fun ev =>
      (handleEvent intoBoxed s.wrapper s.chans ev).wakes.contains .closed
  | _ => false

namespace ClosersState

def set (s : ClosersState σ R E B) (i : ℕ) (c : CloseCall) : ClosersState σ R E B :=
  { s with calls := s.calls.set i c }

/-- `closed.notify_waiters`. -/
def ring (s : ClosersState σ R E B) : ClosersState σ R E B :=
  { s with calls := s.calls.map CloseCall.notify }

def step (s : ClosersState σ R E B) : ClosersLabel M ℓ → Option (ClosersState σ R E B)
  | .start => some { s with calls := s.calls ++ [⟨.created, false⟩] }
  | .push i =>
    match s.calls[i]? with
    | some ⟨.created, notified⟩ =>
      match s.served.step intoBoxed P V (.push (.action .close)) with
      | some served => some { s.set i ⟨.pushed, notified⟩ with served }
      | none => some (s.set i ⟨.refused, notified⟩)
    | _ => none
  | .poll i =>
    match s.calls[i]? with
    | some ⟨.pushed, notified⟩ =>
      some (s.set i ⟨if notified then .returned else .parked, notified⟩)
    | _ => none
  | .resume i =>
    match s.calls[i]? with
    | some ⟨.parked, true⟩ => some (s.set i ⟨.returned, true⟩)
    | _ => none
  | .timeout i =>
    match s.calls[i]? with
    | some ⟨.pushed, notified⟩ | some ⟨.parked, notified⟩ => some (s.set i ⟨.timedOut, notified⟩)
    | _ => none
  | .serve l =>
    (s.served.step intoBoxed P V l).map fun served =>
      if s.served.ringsClosed intoBoxed V l then { s with served }.ring else { s with served }

end ClosersState

/-- A receiver around the poller `P` with the callers of its `close`. -/
def servedClosers : Lts (ClosersState σ R E B) (ClosersLabel M ℓ) where
  start := ⟨.start limit P, []⟩
  step s l := s.step intoBoxed P V l

end Closers

end MessageBus
