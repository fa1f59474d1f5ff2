import MessageBus.Link

/-!
# What a relay's process answers its peer

The process reads whatever frames its peer sends it. A task of its own serves each `Send` frame that
decodes; `put` logs what goes on the item channel, with the frame whose task has put it there.
-/

namespace MessageBus

/-- How `request_boxed` ends. -/
inductive Outcome (S : Type) where
  /-- Before it waits: the bus is closed, nobody takes requests of the type, the waiter table is
  full, or the send is refused. -/
  | returned (err : Error S GenericError)
  | answered (res : Except (Error Unit GenericError) S)

/-- What the task gets, its errors without their message; `none` where `specify` panics. -/
def Outcome.result {S : Type} : Outcome S → Option (Except (Error Unit GenericError) S)
  | .returned err => some (.error (err.mapMsg fun _ => ()))
  | .answered (.ok resp) => some (.ok resp)
  | .answered (.error err) =>
    (err.specify : Option (Error S GenericError)).map fun err => .error (err.mapMsg fun _ => ())

/-- A task that serves a `Send` frame: the frame's number and mid, and the call it makes. -/
structure Job (S : Type) where
  origin : ℕ
  kind : CallKind
  msg : S
  mid : UInt64

section

variable {S : Type}

def Call.job? (d : Call S) : Option (Job S) := d.frame.map (⟨d.origin, d.kind, d.msg, ·⟩)

namespace Process

/-- The tasks that serve frames and have not ended. -/
def jobs (p : Process S) : List (Job S) := p.calls.filterMap Call.job?

/-- What a step that is not the writer's has put on the item channel. -/
def puts (p p' : Process S) : List (ProtocolItem S) :=
  (p'.relay.items.drop p.relay.items.length).filterMap (·.1)

/-- A call comes back, a request with its outcome. -/
def returns [SharedMessage S] (p : Process S) (i : ℕ) (o : Outcome S) : Option (Process S) :=
  match o.result with
  | some res => p.finish i res
  | none =>
    match p.calls[i]? with
    | some ⟨_, .request _ _ _, _, _, some []⟩ => some { p with calls := p.calls.eraseIdx i }
    | _ => none

/-- The writer takes the first item. -/
def take (p : Process S) : Option (Process S) :=
  match p.relay.items with
  | [] => none
  | _ :: items =>
    if p.relay.started && p.relay.rx then some { p with relay.items := items } else none

/-- The frame the `i`-th call serves. -/
def served (p : Process S) (i : ℕ) : Option ℕ :=
  (p.calls[i]?.bind Call.job?).map Job.origin

end Process

structure Serving (S : Type) where
  proc : Process S
  /-- The `Send` frames read. -/
  frames : List ProtocolPacket
  put : List (Option ℕ × ProtocolItem S)

inductive ServingLabel (S : Type) where
  /-- A user's call of the bus. -/
  | call (kind : CallKind) (msg : S)
  /-- A step of the process other than the end of a call. -/
  | act (l : ProcLabel S)
  | returns (i : ℕ) (o : Outcome S)
  | write
  | read (pkt : ProtocolPacket)

def ProcLabel.ends : ProcLabel S → Bool
  | .finish _ _ => true
  | _ => false

namespace Serving

variable [CloneMessage S] (c : Codec S) (e : Endpoint)

def start : Serving S := ⟨.new, [], []⟩

/-- The process moves on, in the task of a frame or not. -/
def move (s : Serving S) (frame : Option ℕ) (p : Process S) : Serving S :=
  { s with proc := p, put := s.put ++ (s.proc.puts p).map fun item => (frame, item) }

def step (s : Serving S) : ServingLabel S → Option (Serving S)
  | .call kind msg =>
    some { s with proc.calls := s.proc.calls ++ [⟨0, kind, msg, none, none⟩] }
  | .act l => if l.ends then none else (s.proc.act e l).map (s.move none)
  | .returns i o => (s.proc.returns i o).map (s.move (s.proc.served i))
  | .write => s.proc.take.map fun proc => { s with proc }
  | .read pkt =>
    match s.proc.relay.started, s.proc.inbound with
    | true, .reading =>
      some { s.move none (s.proc.read c e pkt s.frames.length) with
        frames := s.frames ++ if pkt.header.kind = .send then [pkt] else [] }
    | _, _ => none

end Serving

/-- A process whose peer sends it any frames, with any users and any order of steps. -/
def serving [CloneMessage S] (c : Codec S) (e : Endpoint) : Lts (Serving S) (ServingLabel S) where
  start := .start
  step := Serving.step c e

end

end MessageBus
