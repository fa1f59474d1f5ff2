import MessageBus.Receiver
import MessageBus.Unbatched

/-!
# A local receiver around its poller

`servedReceiver` runs a poller, its senders and the event loop, each step by itself; the loop ends
with its stream once nobody is left to send on it. `boundedReceiver` takes the senders of messages
apart: `try_reserve` step by step, the permit, the push and the mark on the permit.
-/

namespace MessageBus

/-- What a receiver sees of its poller. -/
structure PollerView (σ R E : Type) where
  stx : σ → List (Event R E)
  /-- The loop and its tasks have dropped their senders of the stream. -/
  silent : σ → Bool

section Views

variable {M R E : Type}

def BufferUnordered.Pc.gone : BufferUnordered.Pc M → Bool
  | ended | aborted => true
  | _ => false

def CallStage.gone : CallStage R E → Bool
  | sent _ | panicked => true
  | _ => false

def BufferUnordered.view : PollerView (BufferUnordered M R E) R E where
  stx s := s.stx
  silent s := s.pc.gone && s.tasks.all fun t => t.stage.gone

def Subscription.Pc.gone {H : Type} : Subscription.Pc M R E H → Bool
  | ended | aborted => true
  | _ => false

def SynchronizedItem.view {ι H : Type} {M R E : ι → Type} (i : ι) :
    PollerView (SynchronizedItem M R E H) (R i) (E i) where
  stx s := (s.subs i).stx
  silent s := (s.subs i).pc.gone

def BatchTask.gone (t : BatchTask M R E) : Bool :=
  match t.stage with
  | .sending [] => true
  | _ => false

def BufferUnorderedPc.gone : BufferUnorderedPc M → Bool
  | ended | aborted => true
  | _ => false

def SynchronizedPc.gone : SynchronizedPc → Bool
  | ended | aborted => true
  | _ => false

def BufferUnorderedBatched.view : PollerView (BufferUnorderedBatched M R E) R E where
  stx s := s.core.stx
  silent s := s.pc.gone && s.core.tasks.all BatchTask.gone

def SynchronizedBatched.view : PollerView (SynchronizedBatched M R E) R E where
  stx s := s.core.stx
  silent s := s.pc.gone && s.core.tasks.all BatchTask.gone

end Views

structure ServedState (σ R E B : Type) where
  poller : σ
  wrapper : ReceiverWrapper
  chans : Channels R E B
  loop : Loop
  /-- The events of the stream handled so far. -/
  heard : ℕ

inductive ServedLabel (M ℓ : Type) where
  | push (item : Request M)
  /-- The poller or one of its tasks takes a step. -/
  | run (l : ℓ)
  /-- The event loop handles the next event. -/
  | turn
  /-- The event loop sees the end of its stream and notifies `closed`. -/
  | endStream
  | listen (key : Slab.Key) (w : Waiter)
  | hangUp (tx : ℕ)

section Served

variable {M R E B σ ℓ : Type} [StdSyncSendError E] (intoBoxed : R → B) (limit : UInt64)
  (P : Lts σ (PollerLabel M ℓ)) (V : PollerView σ R E)

def ServedState.step (s : ServedState σ R E B) : ServedLabel M ℓ → Option (ServedState σ R E B)
  | .push item => (P.step s.poller (.push item)).map fun poller => { s with poller }
  | .run l => (P.step s.poller (.run l)).map fun poller => { s with poller }
  | .turn =>
    if s.loop = .running then
      (V.stx s.poller)[s.heard]?.map fun ev =>
        let t := handleEvent intoBoxed s.wrapper s.chans ev
        { s with wrapper := t.wrapper, chans := t.chans, loop := t.loop, heard := s.heard + 1 }
    else none
  | .endStream =>
    if s.loop = .running ∧ s.heard = (V.stx s.poller).length ∧ V.silent s.poller = true then
      some { s with loop := .ended }
    else none
  | .listen key w =>
    (s.wrapper.waiters.insert key w).map fun waiters => { s with wrapper.waiters := waiters }
  | .hangUp tx => some { s with chans := Function.update s.chans tx (s.chans tx).drop }

def ServedState.start : ServedState σ R E B :=
  ⟨P.start, ⟨.empty, .new limit true⟩, fun _ => .waiting, .running, 0⟩

/-- A receiver around the poller `P`. -/
def servedReceiver : Lts (ServedState σ R E B) (ServedLabel M ℓ) where
  start := .start limit P
  step s l := s.step intoBoxed P V l

end Served

section Bounded

/-- A task that sends, past the load of the counter, past the comparison, with its permit, or past
the push. -/
inductive Sender where
  | idle
  | loaded (count : Int64)
  | passed (count : Int64)
  | holding
  | pushed
  deriving DecidableEq, Repr

structure BoundedState (σ R E B : Type) where
  served : ServedState σ R E B
  senders : List Sender

inductive BoundedLabel (M ℓ : Type) where
  /-- Another task starts to send. -/
  | spawn
  /-- The load is relaxed: the count may be an old one. -/
  | load (i : ℕ) (count : Int64)
  | compare (i : ℕ)
  | compareExchange (i : ℕ)
  | dropPermit (i : ℕ)
  /-- The message is pushed, where the queue takes it. -/
  | push (i : ℕ) (mid : UInt64) (msg : M) (req : Bool) (accepted : Bool)
  /-- The permit is marked used, and the receiver in need of a flush. -/
  | mark (i : ℕ)
  /-- Any other step of the receiver. -/
  | serve (l : ServedLabel M ℓ)

variable {M R E B σ ℓ : Type} [StdSyncSendError E] (intoBoxed : R → B) (limit : UInt64)
  (P : Lts σ (PollerLabel M ℓ)) (V : PollerView σ R E)

def ServedLabel.sends : ServedLabel M ℓ → Bool
  | push (.request _ _ _) => true
  | _ => false

namespace BoundedState

def processing (s : BoundedState σ R E B) : Int64 := s.served.wrapper.context.processing

def setProcessing (s : BoundedState σ R E B) (n : Int64) : BoundedState σ R E B :=
  { s with served.wrapper.context.processing := n }

def setSender (s : BoundedState σ R E B) (i : ℕ) (x : Sender) : BoundedState σ R E B :=
  { s with senders := s.senders.set i x }

def step (s : BoundedState σ R E B) : BoundedLabel M ℓ → Option (BoundedState σ R E B)
  | .spawn => some { s with senders := s.senders ++ [.idle] }
  | .load i count =>
    match s.senders[i]? with
    | some .idle => some (s.setSender i (.loaded count))
    | _ => none
  | .compare i =>
    match s.senders[i]? with
    | some (.loaded count) =>
      let limit := s.served.wrapper.context.limit.toInt64
      some (s.setSender i (if count < limit then .passed count else .idle))
    | _ => none
  | .compareExchange i =>
    match s.senders[i]? with
    | some (.passed count) =>
      some (if s.processing = count then (s.setProcessing (count + 1)).setSender i .holding
        else s.setSender i .idle)
    | _ => none
  | .dropPermit i =>
    match s.senders[i]? with
    | some .holding => some ((s.setProcessing (s.processing - 1)).setSender i .idle)
    | _ => none
  | .push i mid msg req accepted =>
    match s.senders[i]? with
    | some .holding =>
      if accepted then
        (s.served.step intoBoxed P V (.push (.request mid msg req))).map fun served =>
          { s.setSender i .pushed with served }
      else some (s.setSender i .pushed)
    | _ => none
  | .mark i =>
    match s.senders[i]? with
    | some .pushed =>
      some { s.setSender i .idle with served.wrapper.context.needFlush := true }
    | _ => none
  | .serve l =>
    if l.sends then none else (s.served.step intoBoxed P V l).map fun served => { s with served }

end BoundedState

/-- A receiver around the poller `P`, all of whose messages come with a permit. -/
def boundedReceiver : Lts (BoundedState σ R E B) (BoundedLabel M ℓ) where
  start := ⟨.start limit P, []⟩
  step s l := s.step intoBoxed P V l

end Bounded

end MessageBus
