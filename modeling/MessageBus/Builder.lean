import MessageBus.Bus
import MessageBus.Lib.Lts

/-!
# Building a bus

`src/builder.rs`: receivers are subscribed to the items of a `RegisterEntry`, its `done` hands them
to the module or builder it was made from, modules are added to one another, and
`BusBuilder::build` makes the bus, spawns the pollers and initialises the receivers.
`buildRuns` has any number of threads build any number of modules and buses at once; all of them
take the ids of their receivers from `RECEVIER_ID_SEQ`. `made` and `lost` are for the proofs.
-/

namespace MessageBus

def ReceiverSet.empty : ReceiverSet := ⟨[], List.nodup_nil⟩

/-- `HashSet::insert`: a receiver whose id is in the set already is dropped. -/
def ReceiverSet.insert (s : ReceiverSet) (r : Receiver) : ReceiverSet :=
  ⟨Index.add Receiver.id s.receivers r, Index.nodup_add s.distinct⟩

def ReceiverSet.extend (s : ReceiverSet) (rs : List Receiver) : ReceiverSet :=
  rs.foldl ReceiverSet.insert s

/-- `SyncEntry` is the entry of a `register`, `UnsyncEntry` that of a `register_unsync`. -/
inductive EntryKind where
  | sync
  | unsync
  deriving DecidableEq, Repr

/-- A registered item behind its `Arc`: as it is, or in a `Mutex`. -/
structure Untyped where
  item : ℕ
  mutex : Bool
  deriving DecidableEq, Repr

/-- The types that implement `ReceiverSubscriberBuilder`. -/
inductive Subscriber where
  | bufferUnorderedSync
  | bufferUnorderedAsync
  | bufferUnorderedBatchedSync
  | bufferUnorderedBatchedAsync
  | synchronizedSync
  | synchronizedAsync
  | synchronizedBatchedSync
  | synchronizedBatchedAsync
  deriving DecidableEq, Repr

/-- The poller takes its item for a `Mutex<T>`, not for a `T`. -/
def Subscriber.locks : Subscriber → Bool
  | bufferUnorderedSync | bufferUnorderedAsync => false
  | bufferUnorderedBatchedSync | bufferUnorderedBatchedAsync => false
  | synchronizedSync | synchronizedAsync => true
  | synchronizedBatchedSync | synchronizedBatchedAsync => true

inductive BusPollerCallback where
  /-- The poller that `S::build` gives the receiver of this id, with its item. -/
  | poller (id : UInt64) (S : Subscriber) (ut : Untyped)
  /-- The event loop of the receiver of this id. -/
  | startPolling (id : UInt64)
  deriving DecidableEq, Repr

/-- `ut.downcast()` at the start of a poller; the task panics where it fails. -/
def BusPollerCallback.downcasts : BusPollerCallback → Bool
  | poller _ S ut => S.locks == ut.mutex
  | startPolling _ => true

structure Module where
  receivers : ReceiverSet
  pollings : List BusPollerCallback

structure BusBuilder where
  inner : Module

/-- What a `RegisterEntry` is made from: the `B` of its type. -/
inductive Payload where
  | module (m : Module)
  | builder (b : BusBuilder)

structure RegisterEntry where
  kind : EntryKind
  item : Untyped
  payload : Payload
  receivers : ReceiverSet
  pollers : List BusPollerCallback

namespace Module

def new : Module := ⟨.empty, []⟩

def registerRelay (m : Module) (id : UInt64) (inner : MessageTable) : Module :=
  ⟨m.receivers.insert ⟨id, .relay inner⟩, m.pollings ++ [.startPolling id]⟩

def addModule (m module : Module) : Module :=
  ⟨m.receivers.extend module.receivers.receivers, m.pollings ++ module.pollings⟩

end Module

namespace BusBuilder

def new : BusBuilder := ⟨.new⟩

def registerRelay (b : BusBuilder) (id : UInt64) (inner : MessageTable) : BusBuilder :=
  ⟨b.inner.registerRelay id inner⟩

def addModule (b : BusBuilder) (module : Module) : BusBuilder := ⟨b.inner.addModule module⟩

end BusBuilder

/-- A bus with the pollers spawned for it and the receivers sent an `Action::Init`. -/
structure Built where
  bus : BusInner
  tasks : List BusPollerCallback
  inits : List UInt64

def BusBuilder.build (b : BusBuilder) : Built where
  bus := .new b.inner.receivers
  tasks := b.inner.pollings
  inits := b.inner.receivers.receivers.map (·.id)

namespace Payload

/-- The module, or the one inside the builder. -/
def inner : Payload → Module
  | module m => m
  | builder b => b.inner

/-- The `builder` and `poller` closures of an entry, for all it has. -/
def take (p : Payload) (receivers : List Receiver) (pollers : List BusPollerCallback) : Payload :=
  match p with
  | module m => module ⟨m.receivers.extend receivers, m.pollings ++ pollers⟩
  | builder b => builder ⟨b.inner.receivers.extend receivers, b.inner.pollings ++ pollers⟩

/-- `register` and `register_unsync`. -/
def register (p : Payload) (kind : EntryKind) (item : ℕ) : RegisterEntry where
  kind := kind
  item := ⟨item, kind == .unsync⟩
  payload := p
  receivers := .empty
  pollers := []

def registerRelay (p : Payload) (id : UInt64) (inner : MessageTable) : Payload :=
  match p with
  | module m => module (m.registerRelay id inner)
  | builder b => builder (b.registerRelay id inner)

def addModule (p : Payload) (m : Module) : Payload :=
  match p with
  | module m' => module (m'.addModule m)
  | builder b => builder (b.addModule m)

end Payload

/-- The methods that subscribe; `any` is `subscribe` itself, whose caller names the receiver. -/
inductive Subscribing where
  | sync
  | async
  | batchSync
  | batchAsync
  | any (S : Subscriber)
  deriving DecidableEq, Repr

namespace Subscribing

/-- The receiver that a method of an entry of this kind subscribes. -/
def subscriber : EntryKind → Subscribing → Subscriber
  | .unsync, sync => .synchronizedSync
  | .unsync, async => .synchronizedAsync
  | .unsync, batchSync => .synchronizedBatchedSync
  | .unsync, batchAsync => .synchronizedBatchedAsync
  | .sync, sync => .bufferUnorderedSync
  | .sync, async => .bufferUnorderedAsync
  | .sync, batchSync => .bufferUnorderedBatchedSync
  | .sync, batchAsync => .bufferUnorderedBatchedAsync
  | _, any S => S

def isAny : Subscribing → Bool
  | any _ => true
  | _ => false

end Subscribing

namespace RegisterEntry

def subscribe (e : RegisterEntry) (id : UInt64) (S : Subscriber) (m r err : TypeTag) :
    RegisterEntry :=
  { e with
    receivers := e.receivers.insert ⟨id, .localTypes m r err⟩
    pollers := e.pollers ++ [.poller id S e.item] ++ [.startPolling id] }

def done (e : RegisterEntry) : Payload := e.payload.take e.receivers.receivers e.pollers

end RegisterEntry

/-- A receiver that was subscribed, or registered as a relay. -/
structure Registration where
  receiver : Receiver
  /-- The item and what polls it; a relay has neither. -/
  source : Option (Subscriber × Untyped)
  /-- By a method that names no receiver type. -/
  named : Bool

/-- The pollers a subscription comes with. -/
def Registration.pollers (s : Registration) : List BusPollerCallback :=
  match s.source with
  | some (S, ut) => [.poller s.receiver.id S ut, .startPolling s.receiver.id]
  | none => [.startPolling s.receiver.id]

inductive Piece where
  | payload (p : Payload)
  | entry (e : RegisterEntry)
  | bus (b : Built)

/-- A value that some thread owns, with the subscriptions that went into it. -/
structure Holding where
  piece : Piece
  made : List Registration

structure BuildState where
  /-- `RECEVIER_ID_SEQ` -/
  seq : UInt64
  holdings : List Holding
  /-- How often the sequence was incremented. -/
  given : ℕ
  /-- What went into values that were dropped. -/
  lost : List Registration

inductive BuildLabel where
  /-- `Module::new`. -/
  | newModule
  /-- `Bus::build`. -/
  | newBuilder
  | register (p : ℕ) (kind : EntryKind) (item : ℕ)
  | registerRelay (p : ℕ) (inner : MessageTable)
  | subscribe (e : ℕ) (how : Subscribing) (m r err : TypeTag)
  | done (e : ℕ)
  /-- The module is looked up where the value it is added to is gone from the list. -/
  | addModule (p module : ℕ)
  | build (p : ℕ)
  /-- An entry without its `done`, a module that is not added, a bus. -/
  | drop (i : ℕ)

namespace BuildState

def start : BuildState := ⟨1, [], 0, []⟩

def hold (s : BuildState) (piece : Piece) (made : List Registration) : BuildState :=
  { s with holdings := s.holdings ++ [⟨piece, made⟩] }

/-- `self`, or an argument, is moved out of its owner's hands. -/
def move (s : BuildState) (i : ℕ) : Option (Holding × BuildState) :=
  s.holdings[i]?.map fun h => (h, { s with holdings := s.holdings.eraseIdx i })

/-- `RECEVIER_ID_SEQ.fetch_add(1)`, whose result is `s.seq`. -/
def fetchAdd (s : BuildState) : BuildState := { s with seq := s.seq + 1, given := s.given + 1 }

def step (s : BuildState) : BuildLabel → Option BuildState
  | .newModule => some (s.hold (.payload (.module .new)) [])
  | .newBuilder => some (s.hold (.payload (.builder .new)) [])
  | .register p kind item =>
    match s.move p with
    | some (⟨.payload p, made⟩, s) => some (s.hold (.entry (p.register kind item)) made)
    | _ => none
  | .registerRelay p inner =>
    match s.move p with
    | some (⟨.payload p, made⟩, s) =>
      some (s.fetchAdd.hold (.payload (p.registerRelay s.seq inner))
        (made ++ [⟨⟨s.seq, .relay inner⟩, none, true⟩]))
    | _ => none
  | .subscribe e how m r err =>
    match s.move e with
    | some (⟨.entry e, made⟩, s) =>
      let S := how.subscriber e.kind
      some (s.fetchAdd.hold (.entry (e.subscribe s.seq S m r err))
        (made ++ [⟨⟨s.seq, .localTypes m r err⟩, some (S, e.item), !how.isAny⟩]))
    | _ => none
  | .done e =>
    match s.move e with
    | some (⟨.entry e, made⟩, s) => some (s.hold (.payload e.done) made)
    | _ => none
  | .addModule p module =>
    match s.move p with
    | some (⟨.payload p, made⟩, s) =>
      match s.move module with
      | some (⟨.payload (.module m), made'⟩, s) =>
        some (s.hold (.payload (p.addModule m)) (made ++ made'))
      | _ => none
    | _ => none
  | .build p =>
    match s.move p with
    | some (⟨.payload (.builder b), made⟩, s) => some (s.hold (.bus b.build) made)
    | _ => none
  | .drop i => (s.move i).map fun (h, s) => { s with lost := s.lost ++ h.made }

end BuildState

def buildRuns : Lts BuildState BuildLabel where
  start := .start
  step := BuildState.step

end MessageBus
