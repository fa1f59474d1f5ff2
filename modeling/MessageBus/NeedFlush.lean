import MessageBus.Batched
import MessageBus.Receiver

/-!
# A batched receiver and its `need_flush` flag

A send pushes its message and then sets the flag (`Receiver::send`); the event loop clears it on
every `Flushed` of its stream. `flushedReceiver` runs any number of senders and of callers that
push actions, a batched poller and the event loop, each step by itself.
-/

namespace MessageBus

structure FlushState (σ R E B : Type) where
  poller : σ
  wrapper : ReceiverWrapper
  chans : Channels R E B
  loop : Loop
  /-- The sends between their push and their `set_need_flush`. -/
  midway : ℕ
  /-- The events of the stream handled so far. -/
  heard : ℕ

inductive FlushLabel (M ℓ : Type) where
  /-- A send pushes its message; a closed queue refuses it and the send goes on. -/
  | send (mid : UInt64) (msg : M) (req : Bool)
  /-- A send sets the flag. -/
  | mark
  /-- A caller of `flush`, `sync`, `init` or `close` pushes its action. -/
  | action (a : Action)
  /-- The poller or one of its tasks takes a step. -/
  | run (l : ℓ)
  /-- The event loop handles the next event. -/
  | turn
  | listen (key : Slab.Key) (w : Waiter)
  | hangUp (tx : ℕ)

section System

variable {M R E B σ ℓ : Type} [StdSyncSendError E] (intoBoxed : R → B) (limit : UInt64)
  (P : Lts σ (PollerLabel M ℓ)) (core : σ → BatchCore M R E)

def FlushState.step (s : FlushState σ R E B) : FlushLabel M ℓ → Option (FlushState σ R E B)
  | .send mid msg req =>
    some { s with
      poller := (P.step s.poller (.push (.request mid msg req))).getD s.poller
      midway := s.midway + 1 }
  | .mark =>
    if 0 < s.midway then
      some { s with wrapper.context.needFlush := true, midway := s.midway - 1 }
    else none
  | .action a => (P.step s.poller (.push (.action a))).map fun poller => { s with poller }
  | .run l => (P.step s.poller (.run l)).map fun poller => { s with poller }
  | .turn =>
    if s.loop = .running then
      (core s.poller).stx[s.heard]?.map fun ev =>
        let t := handleEvent intoBoxed s.wrapper s.chans ev
        { s with wrapper := t.wrapper, chans := t.chans, loop := t.loop, heard := s.heard + 1 }
    else none
  | .listen key w =>
    (s.wrapper.waiters.insert key w).map fun waiters => { s with wrapper.waiters := waiters }
  | .hangUp tx => some { s with chans := Function.update s.chans tx (s.chans tx).drop }

/-- A receiver around the poller `P`, whose queue, buffers and stream are `core`. -/
def flushedReceiver : Lts (FlushState σ R E B) (FlushLabel M ℓ) where
  start := ⟨P.start, ⟨.empty, .new limit true⟩, fun _ => .waiting, .running, 0, 0⟩
  step s l := s.step intoBoxed P core l

end System

end MessageBus
