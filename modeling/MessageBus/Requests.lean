import MessageBus.Served

/-!
# A local receiver with those who send to it and ask it

`requestedReceiver` runs a poller of `src/receivers` and the event loop of `src/receiver.rs` beside
any number of plain sends and of requests: what `localReceiver` makes of the accepted messages is
here left to the poller. A permit and the push that uses it are one step, as in `localReceiver`;
`need_flush` is left out.
-/

namespace MessageBus

/-- `Receiver::reserve` up to a permit, or the `increment_processing` of `force_send`. -/
def ReceiverContext.reserve (c : ReceiverContext) (force : Bool) : Option ReceiverContext :=
  if force then some c.incrementProcessing else c.tryReserve

/-- The steps of the poller and of the event loop. -/
def ServedLabel.inner {M ℓ : Type} : ServedLabel M ℓ → Bool
  | run _ | turn | endStream => true
  | _ => false

structure RequestsState (σ R E B : Type) where
  served : ServedState σ R E B
  idCounter : UInt64
  /-- The mids drawn from the counter, anywhere in the process, and not pushed here yet. -/
  drawn : List UInt64
  reqs : ℕ → Option Req
  reqCount : ℕ

inductive RequestsLabel (M ℓ : Type) where
  /-- A plain send draws the next mid. -/
  | fetchId
  /-- A plain send pushes its message, with a permit or by `force_send`. -/
  | push (mid : UInt64) (msg : M) (force : Bool)
  /-- A request inserts its waiter under the key the table gives it. -/
  | request (kind : WaiterKind) (key : Slab.Key)
  /-- A request gets its permit and pushes its message. -/
  | pushRequest (r : ℕ) (msg : M)
  /-- A request's future is dropped. -/
  | cancel (r : ℕ)
  | action (a : Action)
  | serve (l : ServedLabel M ℓ)

section Requests

variable {M R E B σ ℓ : Type} [StdSyncSendError E] (intoBoxed : R → B) (limit : UInt64)
  (P : Lts σ (PollerLabel M ℓ)) (V : PollerView σ R E)

namespace RequestsState

/-- A permit taken, which the push uses up whatever comes of it. -/
def reserve (s : RequestsState σ R E B) (force : Bool) : Option (RequestsState σ R E B) :=
  (s.served.wrapper.context.reserve force).map fun c => { s with served.wrapper.context := c }

def setReq (s : RequestsState σ R E B) (r : ℕ) (q : Req) : RequestsState σ R E B :=
  { s with reqs := Function.update s.reqs r (some q) }

/-- The future of a request goes away with its receiving half. -/
def drop (s : RequestsState σ R E B) (r : ℕ) (q : Req) : RequestsState σ R E B :=
  { s.setReq r { q with stage := .gone } with
    served.chans := Function.update s.served.chans r (s.served.chans r).drop }

def step (s : RequestsState σ R E B) : RequestsLabel M ℓ → Option (RequestsState σ R E B)
  | .fetchId =>
    some { s with idCounter := s.idCounter + 1, drawn := s.drawn ++ [s.idCounter] }
  | .push mid msg force =>
    if mid ∈ s.drawn then
      (s.reserve force).map fun s =>
        let s := { s with drawn := s.drawn.erase mid }
        match s.served.step intoBoxed P V (.push (.request mid msg false)) with
        | some served => { s with served }
        | none => s
    else none
  | .request kind key =>
    (s.served.step intoBoxed P V (.listen key ⟨kind, s.reqCount⟩)).map fun served =>
      { s.setReq s.reqCount ⟨kind, key, .reserving⟩ with served, reqCount := s.reqCount + 1 }
  | .pushRequest r msg =>
    match s.reqs r with
    | some ⟨kind, key, .reserving⟩ =>
      (s.reserve false).map fun s =>
        match s.served.step intoBoxed P V (.push (.request (requestMid key) msg true)) with
        | some served => { s.setReq r ⟨kind, key, .sent⟩ with served }
        | none => s.drop r ⟨kind, key, .reserving⟩
    | _ => none
  | .cancel r => (s.reqs r).map fun q => s.drop r q
  | .action a => (s.served.step intoBoxed P V (.push (.action a))).map fun served =>
      { s with served }
  | .serve l =>
    if l.inner then (s.served.step intoBoxed P V l).map fun served => { s with served } else none

end RequestsState

/-- A receiver around the poller `P` with its senders and its callers. -/
def requestedReceiver : Lts (RequestsState σ R E B) (RequestsLabel M ℓ) where
  start := ⟨.start limit P, 1, [], fun _ => none, 0⟩
  step s l := s.step intoBoxed P V l

end Requests

end MessageBus
