import MessageBus.Relay

/-!
# Tasks that reserve with a relay at the same time

`RelayWrapper::try_reserve` and `reserve_notify` of `src/relay.rs`, each access to the map and each
atomic operation a step of its own. A context is shared: the permits taken from it keep it when the
map's entry is another. The `Ref` that `get` returns locks the map against `insert`; that only takes
interleavings away, and is left out.
-/

namespace MessageBus

/-- A tag: the contexts made for it so far, the one that is entered, and the contexts of the permits
that are held. -/
structure TagState where
  contexts : List RelayReceiverContext
  entry : Option ℕ
  permits : List ℕ
  deriving DecidableEq, Repr

inductive ReserveCall where
  | tryReserve
  | reserveNotify
  deriving DecidableEq, Repr

/-- Where a task is: outside of both functions, or before the step that is named. -/
inductive ReservePc where
  | idle
  | insert (tt : TypeTag) (call : ReserveCall)
  | get (tt : TypeTag) (call : ReserveCall)
  | load (tt : TypeTag) (a : ℕ)
  | compareExchange (tt : TypeTag) (a : ℕ) (count : UInt64)
  deriving DecidableEq, Repr

structure AdmissionState where
  tags : TypeTag → TagState
  tasks : List ReservePc

inductive AdmissionLabel where
  | spawn
  | containsKey (i : ℕ) (tt : TypeTag) (call : ReserveCall)
  | insert (i : ℕ)
  | get (i : ℕ)
  /-- The load is relaxed: the count may be an old one. -/
  | load (i : ℕ) (count : UInt64)
  | compareExchange (i : ℕ)
  | dropPermit (tt : TypeTag) (a : ℕ)
  deriving DecidableEq, Repr

namespace TagState

def empty : TagState := ⟨[], none, []⟩

/-- The counter in the map, `0` where there is none. -/
def counter (t : TagState) : ℕ :=
  match t.entry.bind fun a => t.contexts[a]? with
  | some r => r.processing.toNat
  | none => 0

def insert (t : TagState) : TagState :=
  { t with contexts := t.contexts ++ [.new 16], entry := some t.contexts.length }

/-- A `compare_exchange` on the context `a` that finds `count`. -/
def grant (t : TagState) (a : ℕ) (r : RelayReceiverContext) (count : UInt64) : TagState :=
  { t with contexts := t.contexts.set a { r with processing := count + 1 }
           permits := t.permits ++ [a] }

/-- `permit_drop` on the context `a`. -/
def drop (t : TagState) (a : ℕ) (r : RelayReceiverContext) : TagState :=
  { t with contexts := t.contexts.set a { r with processing := r.processing - 1 }
           permits := t.permits.erase a }

end TagState

namespace AdmissionState

def start : AdmissionState := ⟨fun _ => .empty, []⟩

def setTask (s : AdmissionState) (i : ℕ) (pc : ReservePc) : AdmissionState :=
  { s with tasks := s.tasks.set i pc }

def setTag (s : AdmissionState) (tt : TypeTag) (t : TagState) : AdmissionState :=
  { s with tags := Function.update s.tags tt t }

def step (s : AdmissionState) : AdmissionLabel → Option AdmissionState
  | .spawn => some { s with tasks := s.tasks ++ [.idle] }
  | .containsKey i tt call =>
    match s.tasks[i]? with
    | some .idle =>
      some (s.setTask i (if (s.tags tt).entry.isSome then .get tt call else .insert tt call))
    | _ => none
  | .insert i =>
    match s.tasks[i]? with
    | some (.insert tt call) => some ((s.setTag tt (s.tags tt).insert).setTask i (.get tt call))
    | _ => none
  | .get i =>
    match s.tasks[i]? with
    | some (.get tt .tryReserve) => (s.tags tt).entry.map fun a => s.setTask i (.load tt a)
    | some (.get tt .reserveNotify) => (s.tags tt).entry.map fun _ => s.setTask i .idle
    | _ => none
  | .load i count =>
    match s.tasks[i]? with
    | some (.load tt a) => (s.tags tt).contexts[a]?.map fun r =>
        s.setTask i (if count < r.limit then .compareExchange tt a count else .idle)
    | _ => none
  | .compareExchange i =>
    match s.tasks[i]? with
    | some (.compareExchange tt a count) => (s.tags tt).contexts[a]?.map fun r =>
        if r.processing = count then
          (s.setTag tt ((s.tags tt).grant a r count)).setTask i .idle
        else s.setTask i (.get tt .tryReserve)
    | _ => none
  | .dropPermit tt a =>
    if a ∈ (s.tags tt).permits then
      (s.tags tt).contexts[a]?.map fun r => s.setTag tt ((s.tags tt).drop a r)
    else none

end AdmissionState

/-- Any number of tasks that reserve with a relay and drop their permits. -/
def admission : Lts AdmissionState AdmissionLabel where
  start := .start
  step := AdmissionState.step

end MessageBus
