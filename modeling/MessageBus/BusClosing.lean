import MessageBus.Closers
import Mathlib.Data.List.FinRange

/-!
# Closing a bus

`Bus::close` of `src/lib.rs`: under the bus's `maintain` lock it sets `closed`, and closes one
receiver after the other, each within a timeout. `busClosing` runs any number of callers of it
beside receivers whose handlers share no mutex; their order is that of the bus's set.
-/

namespace MessageBus

/-- A local receiver around a poller. -/
structure PolledReceiver (B : Type) where
  M : Type
  R : Type
  E : Type
  σ : Type
  ℓ : Type
  errors : StdSyncSendError E
  intoBoxed : R → B
  limit : UInt64
  poller : Lts σ (PollerLabel M ℓ)
  view : PollerView σ R E

namespace PolledReceiver

variable {B : Type} (r : PolledReceiver B)

instance : StdSyncSendError r.E := r.errors

abbrev State : Type := ClosersState r.σ r.R r.E B

abbrev Label : Type := ClosersLabel r.M r.ℓ

def closers : Lts r.State r.Label := servedClosers r.intoBoxed r.limit r.poller r.view

end PolledReceiver

/-- Where a call of `Bus::close` is. `past` holds its calls of `Receiver::close` that are over, each
the number of its receiver's. -/
inductive BusCloser (n : ℕ) where
  /-- In line for the lock. -/
  | waiting
  | closing (past : List (Fin n × ℕ)) (todo : List (Fin n))
  | awaiting (past : List (Fin n × ℕ)) (i : Fin n) (call : ℕ) (todo : List (Fin n))
  | done (past : List (Fin n × ℕ))
  deriving DecidableEq, Repr

/-- The call holds the lock. -/
def BusCloser.holds {n : ℕ} : BusCloser n → Bool
  | closing _ _ | awaiting _ _ _ _ => true
  | waiting | done _ => false

structure BusClosing {n : ℕ} {B : Type} (rs : Fin n → PolledReceiver B) where
  receivers : ∀ i, (rs i).State
  /-- The bus's `closed`. -/
  closed : Bool
  /-- Who holds `maintain`. -/
  maintain : Option ℕ
  closers : List (BusCloser n)

inductive BusClosingLabel {n : ℕ} {B : Type} (rs : Fin n → PolledReceiver B) where
  /-- Somebody calls `Bus::close`. -/
  | call
  | lock (k : ℕ)
  /-- The call goes on to its next receiver, or returns. -/
  | next (k : ℕ)
  /-- The close of a receiver that the call waits for is over. -/
  | advance (k : ℕ)
  /-- A receiver takes a step, or somebody else calls its `close`. -/
  | receiver (i : Fin n) (l : (rs i).Label)

namespace BusClosing

variable {n : ℕ} {B : Type} {rs : Fin n → PolledReceiver B}

def start (rs : Fin n → PolledReceiver B) : BusClosing rs :=
  ⟨fun i => (rs i).closers.start, false, none, []⟩

def stepReceiver (s : BusClosing rs) (i : Fin n) (l : (rs i).Label) : Option (BusClosing rs) :=
  ((rs i).closers.step (s.receivers i) l).map fun r =>
    { s with receivers := Function.update s.receivers i r }

def setCloser (s : BusClosing rs) (k : ℕ) (c : BusCloser n) : BusClosing rs :=
  { s with closers := s.closers.set k c }

def step (s : BusClosing rs) : BusClosingLabel rs → Option (BusClosing rs)
  | .call => some { s with closers := s.closers ++ [.waiting] }
  | .lock k =>
    match s.closers[k]?, s.maintain with
    | some .waiting, none =>
      some { s.setCloser k (.closing [] (List.finRange n)) with closed := true, maintain := some k }
    | _, _ => none
  | .next k =>
    match s.closers[k]? with
    | some (.closing past []) => some { s.setCloser k (.done past) with maintain := none }
    | some (.closing past (i :: todo)) =>
      (s.stepReceiver i .start).map fun s' =>
        s'.setCloser k (.awaiting past i (s.receivers i).calls.length todo)
    | _ => none
  | .advance k =>
    match s.closers[k]? with
    | some (.awaiting past i call todo) =>
      match (s.receivers i).calls[call]? with
      | some c =>
        if c.stage.over then some (s.setCloser k (.closing (past ++ [(i, call)]) todo)) else none
      | none => none
    | _ => none
  | .receiver i l => s.stepReceiver i l

end BusClosing

/-- The local receivers of a bus, and any number of callers of `Bus::close`. -/
def busClosing {n : ℕ} {B : Type} (rs : Fin n → PolledReceiver B) :
    Lts (BusClosing rs) (BusClosingLabel rs) where
  start := .start rs
  step := BusClosing.step

end MessageBus
