import MessageBus.Lib.Lts
import MessageBus.TcpRelay

/-!
# Two buses joined by their relays

Each process runs its writer, its inbound stream and its calls in steps of their own; what a side
has written waits on the wire until the other reads it, and the tail of the wire is lost with a
broken connection.
-/

namespace MessageBus

inductive Side where
  | left
  | right
  deriving DecidableEq, Repr

def Side.other : Side → Side
  | left => right
  | right => left

@[simp] theorem Side.other_other (x : Side) : x.other.other = x := by
  cases x <;> rfl

@[simp] theorem Side.other_ne (x : Side) : x.other ≠ x := by
  cases x <;> exact nofun

structure LinkState (S : Type) where
  procs : Side → Process S
  /-- What a side has written and the other has not read; a `Send` frame with its call. -/
  wire : Side → List (ProtocolPacket × ℕ)
  /-- The calls that users have made. -/
  issued : ℕ

inductive ProcLabel (S : Type) where
  /-- `Receiver::init` of the relay. -/
  | init
  | start (i : ℕ)
  | deliver (i : ℕ) (key : Slab.Key) (mid : UInt64)
  | finish (i : ℕ) (res : Except (Error Unit GenericError) S)
  | visit (need : Bool)
  | resume
  | callerAwait (round : Round)
  | callerCancel (round : Round)
  /-- `Bus::close` sets its flag. -/
  | closeBus
  /-- `Receiver::close` of the relay. -/
  | closeRelay
  /-- The stream ends on the `Exited` of a `Close`. -/
  | exit
  /-- The writer ends. -/
  | halt

inductive LinkLabel (S : Type) where
  /-- A user's call of the bus. -/
  | call (kind : CallKind) (msg : S)
  | act (l : ProcLabel S)
  /-- The writer takes an item; where it cannot be serialized the writer panics. -/
  | write
  | read
  /-- All but the first `n` frames on the wire are lost. -/
  | lose (n : ℕ)

variable {S : Type} [CloneMessage S]

def TcpRelay.halt (r : TcpRelay S) : TcpRelay S := { r with rx := false, items := [] }

def Process.act (e : Endpoint) (p : Process S) : ProcLabel S → Option (Process S)
  | .init => (p.relay.sendAction (.init e.relayId)).map fun relay => { p with relay }
  | .start i => p.start e i
  | .deliver i key mid => p.deliver e i key mid
  | .finish i res => p.finish i res
  | .visit need => p.visit e need
  | .resume => p.resume e
  | .callerAwait round => some (p.callerAwait round)
  | .callerCancel round => some (p.callerCancel round)
  | .closeBus => some { p with closed := true }
  | .closeRelay => (p.relay.sendAction .close).map fun relay => { p with relay }
  | .exit => if p.relay.exited then some { p with inbound := .ended } else none
  | .halt => if p.relay.started then some { p with relay := p.relay.halt } else none

namespace LinkState

variable (c : Codec S) (L : Side → Endpoint)

def start : LinkState S := ⟨fun _ => .new, fun _ => [], 0⟩

def set (s : LinkState S) (x : Side) (p : Process S) : LinkState S :=
  { s with procs := Function.update s.procs x p }

/-- The writer of a side takes the first of its items. -/
def write (s : LinkState S) (x : Side) : Option (LinkState S) :=
  let p := s.procs x
  if p.relay.started && p.relay.rx then
    match p.relay.items with
    | [] => none
    | (none, _) :: items => some (s.set x { p with relay.items := items })
    | (some item, origin) :: items =>
      match item.serialize c .cbor [] with
      | some (.ok pkt) =>
        some { s.set x { p with relay.items := items } with
          wire := Function.update s.wire x (s.wire x ++ [(pkt, origin)]) }
      | _ => some (s.set x { p with relay := p.relay.halt })
  else none

/-- The stream of a side reads the first frame; its writer has handed it the connection. -/
def read (s : LinkState S) (x : Side) : Option (LinkState S) :=
  let p := s.procs x
  match p.relay.started, p.inbound, s.wire x.other with
  | true, .reading, (pkt, origin) :: rest =>
    some { s.set x (p.read c (L x) pkt origin) with
      wire := Function.update s.wire x.other rest }
  | _, _, _ => none

def step (s : LinkState S) (x : Side) : LinkLabel S → Option (LinkState S)
  | .call kind msg =>
    let p := s.procs x
    some { s.set x { p with calls := p.calls ++ [⟨s.issued, kind, msg, none, none⟩] } with
      issued := s.issued + 1 }
  | .act l => ((s.procs x).act (L x) l).map (s.set x)
  | .write => s.write c x
  | .read => s.read c L x
  | .lose n => some { s with wire := Function.update s.wire x ((s.wire x).take n) }

end LinkState

/-- Two processes whose relays are joined, with any users and any order of steps. -/
def link (c : Codec S) (L : Side → Endpoint) : Lts (LinkState S) (Side × LinkLabel S) where
  start := .start
  step s l := s.step c L l.1 l.2

end MessageBus
