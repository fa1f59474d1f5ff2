import MessageBus.Lib.Notify
import MessageBus.Receiver
import Mathlib.Logic.Function.Basic

/-!
# Tasks that wait for capacity

`Receiver::reserve` and `Bus::send_ext`, `try_send_ext` of `src/receiver.rs` and `src/lib.rs`, over
any receivers. `reserveRuns` runs the tasks beside the handlers and the event loops of the local
receivers; a loop lowers the counter and notifies in two steps. A `compare_exchange` that fails goes
back to its load, so `try_reserve` is one step.
-/

namespace MessageBus

/-- A receiver of a message: a local one, or a relay, which answers as it likes. -/
inductive Target (ι : Type) where
  | receiver (r : ι)
  | relay
  deriving DecidableEq, Repr

/-- Where `reserve` is: before a `try_reserve`, the first or that of a notified task, past one that
was refused, or among the waiters; or the task has its permit. -/
inductive SendStage where
  | reserving
  | woken
  | refused
  | parked
  | holding
  deriving DecidableEq, Repr

inductive SendTask (ι : Type) where
  | idle
  /-- `send_ext` at a receiver, with those that come after it. -/
  | sending (stage : SendStage) (x : Target ι) (todo : List (Target ι))
  /-- `try_send_ext` with the permits it has so far. -/
  | collecting (permits todo : List (Target ι))
  | dropping (permits : List (Target ι))
  | delivering (permits : List (Target ι))
  deriving DecidableEq, Repr

namespace SendTask

variable {ι : Type}

def send : List (Target ι) → SendTask ι
  | [] => .idle
  | x :: todo => .sending .reserving x todo

def deliver : List (Target ι) → SendTask ι
  | [] => .idle
  | permits => .delivering permits

def drop : List (Target ι) → SendTask ι
  | [] => .idle
  | permits => .dropping permits

def collect (permits : List (Target ι)) : List (Target ι) → SendTask ι
  | [] => deliver permits
  | todo => .collecting permits todo

/-- A notification reaches the task. -/
def wake : SendTask ι → SendTask ι
  | .sending .parked x todo => .sending .woken x todo
  | t => t

/-- The permits in the task's hands. -/
def permits : SendTask ι → List (Target ι)
  | .sending .holding x _ => [x]
  | .collecting permits _ | .dropping permits | .delivering permits => permits
  | _ => []

end SendTask

structure ReserveReceiver where
  context : ReceiverContext
  /-- `context.response`. -/
  response : Notify ℕ
  /-- The messages whose handler has not completed. -/
  running : ℕ
  /-- The `Response`s on the stream. -/
  responses : ℕ
  /-- The loop has lowered the counter for a `Response` and not notified yet. -/
  answering : Bool

structure ReserveState (ι : Type) where
  receivers : ι → ReserveReceiver
  tasks : List (SendTask ι)

inductive ReserveLabel (ι : Type) where
  | spawn
  | send (i : ℕ) (rs : List (Target ι))
  | trySend (i : ℕ) (rs : List (Target ι))
  /-- The next `try_reserve` of a task; `got` is a relay's answer. -/
  | tryReserve (i : ℕ) (got : Bool)
  /-- The first poll of `notified`. -/
  | poll (i : ℕ)
  /-- The next permit of a task is used up by a send. -/
  | push (i : ℕ)
  | dropPermit (i : ℕ)
  | complete (r : ι)
  | fetchSub (r : ι)
  | notifyOne (r : ι)

namespace ReserveState

variable {ι : Type} [DecidableEq ι]

def start (limit : ι → UInt64) : ReserveState ι :=
  ⟨fun r => ⟨.new (limit r) true, .new, 0, 0, false⟩, []⟩

def setTask (s : ReserveState ι) (i : ℕ) (t : SendTask ι) : ReserveState ι :=
  { s with tasks := s.tasks.set i t }

def setReceiver (s : ReserveState ι) (r : ι) (x : ReserveReceiver) : ReserveState ι :=
  { s with receivers := Function.update s.receivers r x }

def tryReserve (s : ReserveState ι) (got : Bool) : Target ι → Option (ReserveState ι)
  | .receiver r => (s.receivers r).context.tryReserve.map fun context =>
      s.setReceiver r { s.receivers r with context }
  | .relay => if got then some s else none

/-- `send` with a permit, whose message is taken. -/
def push (s : ReserveState ι) : Target ι → ReserveState ι
  | .receiver r => s.setReceiver r
      { s.receivers r with
        context.needFlush := true
        running := (s.receivers r).running + 1 }
  | .relay => s

def permitDrop (s : ReserveState ι) : Target ι → ReserveState ι
  | .receiver r => s.setReceiver r
      { s.receivers r with context.processing := (s.receivers r).context.processing - 1 }
  | .relay => s

def step (s : ReserveState ι) : ReserveLabel ι → Option (ReserveState ι)
  | .spawn => some { s with tasks := s.tasks ++ [.idle] }
  | .send i rs =>
    match s.tasks[i]? with
    | some .idle => some (s.setTask i (.send rs))
    | _ => none
  | .trySend i rs =>
    match s.tasks[i]? with
    | some .idle => some (s.setTask i (.collect [] rs))
    | _ => none
  | .tryReserve i got =>
    match s.tasks[i]? with
    | some (.sending .reserving x todo) | some (.sending .woken x todo) =>
      match s.tryReserve got x with
      | some s => some (s.setTask i (.sending .holding x todo))
      | none => some (s.setTask i (.sending .refused x todo))
    | some (.collecting permits (x :: todo)) =>
      match s.tryReserve got x with
      | some s => some (s.setTask i (.collect (permits ++ [x]) todo))
      | none => some (s.setTask i (.drop permits))
    | _ => none
  | .poll i =>
    match s.tasks[i]? with
    | some (.sending .refused (.receiver r) todo) =>
      let (response, ready) := (s.receivers r).response.notified i
      some ((s.setReceiver r { s.receivers r with response }).setTask i
        (.sending (if ready then .woken else .parked) (.receiver r) todo))
    | some (.sending .refused .relay todo) => some (s.setTask i (.sending .woken .relay todo))
    | _ => none
  | .push i =>
    match s.tasks[i]? with
    | some (.sending .holding x todo) => some ((s.push x).setTask i (.send todo))
    | some (.delivering (x :: permits)) => some ((s.push x).setTask i (.deliver permits))
    | _ => none
  | .dropPermit i =>
    match s.tasks[i]? with
    | some (.dropping (x :: permits)) => some ((s.permitDrop x).setTask i (.drop permits))
    | _ => none
  | .complete r =>
    match (s.receivers r).running with
    | n + 1 => some (s.setReceiver r
        { s.receivers r with running := n, responses := (s.receivers r).responses + 1 })
    | 0 => none
  | .fetchSub r =>
    match (s.receivers r).answering, (s.receivers r).responses with
    | false, n + 1 => some (s.setReceiver r
        { s.receivers r with
          context.processing := (s.receivers r).context.processing - 1
          responses := n
          answering := true })
    | _, _ => none
  | .notifyOne r =>
    if (s.receivers r).answering then
      let (response, woken) := (s.receivers r).response.notifyOne
      some { s.setReceiver r { s.receivers r with response, answering := false } with
        tasks := woken.foldl (fun tasks i => tasks.modify i .wake) s.tasks }
    else none

end ReserveState

/-- The tasks beside local receivers with these limits. -/
def reserveRuns {ι : Type} [DecidableEq ι] (limit : ι → UInt64) :
    Lts (ReserveState ι) (ReserveLabel ι) where
  start := .start limit
  step s l := s.step l

end MessageBus
