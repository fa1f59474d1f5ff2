import MessageBus.Link

/-!
# The requests that two buses exchange

`exchange` runs `link` beside callers that go away while they wait, and logs what the users of each
side ask and what the requests end with that each side's relay has read.
-/

namespace MessageBus

/-- A request that a relay has read, at the end of its call. -/
structure ServedRequest (S : Type) where
  /-- The user's call it stems from. -/
  origin : ℕ
  msg : S
  res : Except (Error Unit GenericError) S

structure Exchange (S : Type) where
  link : LinkState S
  /-- The calls of the users in turn. -/
  asked : List (Side × CallKind × S)
  served : Side → List (ServedRequest S)

inductive ExchangeLabel (S : Type) where
  | link (l : LinkLabel S)
  /-- A caller drops its request. -/
  | hangUp (tx : ℕ)

section Labels

variable {S : Type}

/-- What a step ends for the other side. -/
def Process.served? (p : Process S) : LinkLabel S → Option (ServedRequest S)
  | .act (.finish i res) =>
    match p.calls[i]? with
    | some ⟨origin, kind, msg, some _, some []⟩ =>
      if kind.isReq then some ⟨origin, msg, res⟩ else none
    | _ => none
  | _ => none

def LinkLabel.asked? (x : Side) : LinkLabel S → Option (Side × CallKind × S)
  | call kind msg => some (x, kind, msg)
  | _ => none

end Labels

namespace Exchange

variable {S : Type} [CloneMessage S] (c : Codec S) (L : Side → Endpoint)

def start : Exchange S := ⟨.start, [], fun _ => []⟩

def step (s : Exchange S) (x : Side) : ExchangeLabel S → Option (Exchange S)
  | .link l => (s.link.step c L x l).map fun link =>
    ⟨link, s.asked ++ (l.asked? x).toList,
      Function.update s.served x (s.served x ++ ((s.link.procs x).served? l).toList)⟩
  | .hangUp tx =>
    let p := s.link.procs x
    some { s with
      link := s.link.set x { p with chans := Function.update p.chans tx (p.chans tx).drop } }

end Exchange

/-- Two processes whose relays are joined, with users that ask and go away. -/
def exchange {S : Type} [CloneMessage S] (c : Codec S) (L : Side → Endpoint) :
    Lts (Exchange S) (Side × ExchangeLabel S) where
  start := .start
  step s l := s.step c L l.1 l.2

end MessageBus
