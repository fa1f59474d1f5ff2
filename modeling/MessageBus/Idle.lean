import MessageBus.Served

/-!
# Callers of `idle`

`Receiver::idle` of `src/receiver.rs` beside the senders, the poller and the event loop of a local
receiver. A caller loads the counter, makes its `Notified` and awaits, three steps; a loop whose
`fetch_sub` found `1` notifies `idle` in a step of its own. A `force_send` raises the counter
without a permit.
-/

namespace MessageBus

/-- Before the load of the counter, past a load that did not find `0`, with its `Notified`, among
the waiters, or past the call. -/
inductive IdleStage where
  | called
  | busy
  | created
  | parked
  | returned
  deriving DecidableEq, Repr

structure IdleCall where
  stage : IdleStage
  /-- Its `Notified` is complete. -/
  notified : Bool
  deriving DecidableEq, Repr

/-- `notify_waiters` completes the `Notified`s that are there. -/
def IdleCall.notify (c : IdleCall) : IdleCall :=
  match c.stage with
  | .created | .parked => { c with notified := true }
  | _ => c

structure IdleState (σ R E B : Type) where
  bounded : BoundedState σ R E B
  /-- The senders in `force_send` before the push; what they hold is not a permit. -/
  forced : List ℕ
  /-- The loop is about to notify `idle`. -/
  ringing : Bool
  calls : List IdleCall

inductive IdleLabel (M ℓ : Type) where
  | call
  | isIdling (i : ℕ)
  /-- A call makes its `Notified`. -/
  | notified (i : ℕ)
  /-- The first poll of the `Notified`. -/
  | poll (i : ℕ)
  /-- A call that is parked is polled again, with its notification. -/
  | resume (i : ℕ)
  /-- `increment_processing` of a `force_send`. -/
  | incrementProcessing (i : ℕ)
  | notifyWaiters
  /-- The senders and the receiver take a step. -/
  | step (l : BoundedLabel M ℓ)

section Idle

variable {M R E B σ ℓ : Type} [StdSyncSendError E] (intoBoxed : R → B) (limit : UInt64)
  (P : Lts σ (PollerLabel M ℓ)) (V : PollerView σ R E)

namespace IdleState

def processing (s : IdleState σ R E B) : Int64 := s.bounded.processing

def set (s : IdleState σ R E B) (i : ℕ) (c : IdleCall) : IdleState σ R E B :=
  { s with calls := s.calls.set i c }

/-- The next turn of the loop notifies `idle`. -/
def rings (s : IdleState σ R E B) : Bool :=
  match (V.stx s.bounded.served.poller)[s.bounded.served.heard]? with
  | some ev =>
    .idle ∈ (handleEvent intoBoxed s.bounded.served.wrapper s.bounded.served.chans ev).wakes
  | none => false

/-- A forced sender has no permit to drop, and a loop that is in a turn does not begin another. -/
def blocked (s : IdleState σ R E B) : BoundedLabel M ℓ → Bool
  | .dropPermit i => i ∈ s.forced
  | .serve .turn | .serve .endStream => s.ringing
  | _ => false

def forcedAfter (s : IdleState σ R E B) : BoundedLabel M ℓ → List ℕ
  | .push i _ _ _ _ => s.forced.erase i
  | _ => s.forced

def ringingAfter (s : IdleState σ R E B) : BoundedLabel M ℓ → Bool
  | .serve .turn => s.rings intoBoxed V
  | _ => s.ringing

def step (s : IdleState σ R E B) : IdleLabel M ℓ → Option (IdleState σ R E B)
  | .call => some { s with calls := s.calls ++ [⟨.called, false⟩] }
  | .isIdling i =>
    match s.calls[i]? with
    | some ⟨.called, notified⟩ =>
      some (s.set i ⟨if s.processing = 0 then .returned else .busy, notified⟩)
    | _ => none
  | .notified i =>
    match s.calls[i]? with
    | some ⟨.busy, notified⟩ => some (s.set i ⟨.created, notified⟩)
    | _ => none
  | .poll i =>
    match s.calls[i]? with
    | some ⟨.created, notified⟩ =>
      some (s.set i ⟨if notified then .returned else .parked, notified⟩)
    | _ => none
  | .resume i =>
    match s.calls[i]? with
    | some ⟨.parked, true⟩ => some (s.set i ⟨.returned, true⟩)
    | _ => none
  | .incrementProcessing i =>
    match s.bounded.senders[i]? with
    | some .idle =>
      some { s with
        bounded := (s.bounded.setProcessing (s.processing + 1)).setSender i .holding
        forced := i :: s.forced }
    | _ => none
  | .notifyWaiters =>
    if s.ringing then some { s with ringing := false, calls := s.calls.map .notify } else none
  | .step l =>
    if s.blocked l then none
    else (s.bounded.step intoBoxed P V l).map fun bounded =>
      { s with bounded, forced := s.forcedAfter l, ringing := s.ringingAfter intoBoxed V l }

end IdleState

/-- A receiver around the poller `P` with its senders and the callers of `idle`. -/
def idleCallers : Lts (IdleState σ R E B) (IdleLabel M ℓ) where
  start := ⟨⟨.start limit P, []⟩, [], false, []⟩
  step s l := s.step intoBoxed P V l

end Idle

end MessageBus
