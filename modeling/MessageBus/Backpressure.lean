import MessageBus.Lib.Notify
import MessageBus.Served

/-!
# A receiver under senders that wait

`pressedReceiver` is `boundedReceiver` whose tasks only send: a sender that `try_reserve` refuses
polls `notified` and is parked until a `Response` wakes it, and no permit is dropped. Actions are
not pushed, so no flush is.
-/

namespace MessageBus

structure PressedState (σ R E B : Type) where
  bounded : BoundedState σ R E B
  /-- `context.response`, with the senders that are parked. -/
  response : Notify ℕ
  /-- The senders that were refused and have not polled `notified` yet. -/
  refused : List ℕ

inductive PressedLabel (M ℓ : Type) where
  | spawn
  | load (i : ℕ) (count : Int64)
  | compare (i : ℕ)
  /-- The first poll of `notified`. -/
  | poll (i : ℕ)
  | compareExchange (i : ℕ)
  | push (i : ℕ) (mid : UInt64) (msg : M) (req : Bool)
  | mark (i : ℕ)
  /-- The poller or one of its tasks takes a step. -/
  | run (l : ℓ)
  /-- The event loop handles the next event. -/
  | turn

/-- The notifications of a turn that are for the senders. -/
def Wake.ringResponse (n : Notify ℕ) : Wake → Notify ℕ
  | .responseOne => n.notifyOne.1
  | .response => n.notifyWaiters.1
  | _ => n

section Pressed

variable {M R E B σ ℓ : Type} [StdSyncSendError E] (intoBoxed : R → B) (limit : UInt64)
  (P : Lts σ (PollerLabel M ℓ)) (V : PollerView σ R E)

namespace PressedState

/-- The notifications of the turn that is next. -/
def nextWakes (s : PressedState σ R E B) : List Wake :=
  match (V.stx s.bounded.served.poller)[s.bounded.served.heard]? with
  | some ev => (handleEvent intoBoxed s.bounded.served.wrapper s.bounded.served.chans ev).wakes
  | none => []

/-- A step of the receiver that wakes nobody. -/
def lift (s : PressedState σ R E B) (l : BoundedLabel M ℓ) : Option (PressedState σ R E B) :=
  (s.bounded.step intoBoxed P V l).map fun bounded => { s with bounded }

def step (s : PressedState σ R E B) : PressedLabel M ℓ → Option (PressedState σ R E B)
  | .spawn => s.lift intoBoxed P V .spawn
  | .load i count =>
    if i ∈ s.refused ∨ i ∈ s.response.waiters then none else s.lift intoBoxed P V (.load i count)
  | .compare i =>
    (s.lift intoBoxed P V (.compare i)).map fun s =>
      if s.bounded.senders[i]? = some .idle then { s with refused := i :: s.refused } else s
  | .poll i =>
    if i ∈ s.refused then
      some { s with refused := s.refused.erase i, response := (s.response.notified i).1 }
    else none
  | .compareExchange i => s.lift intoBoxed P V (.compareExchange i)
  | .push i mid msg req => s.lift intoBoxed P V (.push i mid msg req true)
  | .mark i => s.lift intoBoxed P V (.mark i)
  | .run l => s.lift intoBoxed P V (.serve (.run l))
  | .turn =>
    (s.lift intoBoxed P V (.serve .turn)).map fun s' =>
      { s' with response := (s.nextWakes intoBoxed V).foldl Wake.ringResponse s.response }

end PressedState

/-- A receiver around the poller `P`, under tasks that send and nothing else. -/
def pressedReceiver : Lts (PressedState σ R E B) (PressedLabel M ℓ) where
  start := ⟨⟨.start limit P, []⟩, .new, []⟩
  step s l := s.step intoBoxed P V l

/-- A sender is parked and messages sit in a partial batch, while the queue is empty, no batch runs
and no event is left to handle. -/
structure Wedged (core : σ → BatchCore M R E) (batchSize : ℕ) (s : PressedState σ R E B) :
    Prop where
  parked : s.response.waiters ≠ []
  queue : (core s.bounded.served.poller).rx = []
  idle : ∀ t ∈ (core s.bounded.served.poller).tasks, t.gone = true
  heard : s.bounded.served.heard = (V.stx s.bounded.served.poller).length
  buffered : (core s.bounded.served.poller).bufferMid ≠ []
  notFull : (core s.bounded.served.poller).bufferMid.length < batchSize

/-- No state is reached from which whatever the senders do leaves a receiver wedged. -/
def NeverDeadlocked (core : σ → BatchCore M R E) (batchSize : ℕ) : Prop :=
  ∀ s, (pressedReceiver intoBoxed limit P V).Reachable s →
    ¬ (pressedReceiver intoBoxed limit P V).Trapped (Wedged V core batchSize) s

end Pressed

end MessageBus
