import MessageBus.Lib.Index
import MessageBus.Proto
import Mathlib.Data.List.AList

/-!
# The receivers of a bus, their index and the broadcasts

`MessageTable` of `src/relays/mod.rs` of the remote crate, the `TypeTagAccept` of local receivers
and of relays, and `BusInner::new` and `select_receivers` of `src/lib.rs`. The order in which a hash
set or map gives out its entries is that of a list here; nothing below depends on it.

Over them `send_ext`, `try_send_ext`, `force_send_ext` and `send_boxed`. Which receivers have a
permit to give is a parameter, and what a receiver makes of its copy is not looked at: each `send`
drops that result.
-/

namespace MessageBus

/-- A message tag, and for a request its response and error tags. -/
abbrev TypeTagAcceptItem := TypeTag × Option (TypeTag × TypeTag)

structure MessageTable where
  table : AList fun _ : TypeTag => List (Option (TypeTag × TypeTag))

namespace MessageTable

def empty : MessageTable := ⟨∅⟩

def addAny (t : MessageTable) (req : TypeTag) (respErr : Option (TypeTag × TypeTag)) :
    MessageTable :=
  ⟨t.table.insert req ((t.table.lookup req).getD [] ++ [respErr])⟩

/-- `From<Vec<..>>`. -/
def ofList (l : List TypeTagAcceptItem) : MessageTable :=
  l.foldl (fun t e => t.addAny e.1 e.2) empty

def acceptAny (t : MessageTable) (msg : TypeTag) : Bool := (t.table.lookup msg).isSome

def acceptMessage (t : MessageTable) (msg : TypeTag) : Bool :=
  match t.table.lookup msg with
  | some v => v.any Option.isNone
  | none => false

def acceptRequest (t : MessageTable) (msg : TypeTag) (resp err : Option TypeTag) : Bool :=
  match t.table.lookup msg with
  | some v => (v.filterMap fun x => x).any fun re =>
    (resp.elim true fun resp => resp == re.1) && err.elim true fun err => err == re.2
  | none => false

def iterTypes (t : MessageTable) : List TypeTagAcceptItem :=
  t.table.entries.flatMap fun e => e.2.map fun resp => (e.1, resp)

end MessageTable

/-- A local receiver's message, response and error tags, or a relay's outgoing table. -/
inductive ReceiverKind where
  | localTypes (m r e : TypeTag)
  | relay (table : MessageTable)

structure Receiver where
  id : UInt64
  kind : ReceiverKind

namespace Receiver

def iterTypes (r : Receiver) : List TypeTagAcceptItem :=
  match r.kind with
  | .localTypes m r e => [(m, some (r, e))]
  | .relay table => table.iterTypes

def acceptMsg (r : Receiver) (msg : TypeTag) : Bool :=
  match r.kind with
  | .localTypes m _ _ => msg == m
  | .relay table => table.acceptMessage msg

def acceptReq (r : Receiver) (req : TypeTag) (resp err : Option TypeTag) : Bool :=
  match r.kind with
  | .localTypes m r e =>
    if resp.any (· != r) then false else if err.any (· != e) then false else req == m
  | .relay table => table.acceptRequest req resp err

def accept (r : Receiver) (isReq : Bool) (msg : TypeTag) (resp err : Option TypeTag) : Bool :=
  if isReq then r.acceptReq msg resp err else r.acceptMsg msg

end Receiver

inductive SendOptions where
  | broadcast
  | except (id : UInt64)
  | direct (id : UInt64)
  | random
  | balanced
  deriving DecidableEq, Repr

/-- The filter on ids at the end of `select_receivers`. -/
def SendOptions.passes : SendOptions → UInt64 → Bool
  | except id, rid => id != rid
  | direct id, rid => id == rid
  | _, _ => true

/-- A `HashSet<Receiver>`: receivers are equal when their ids are. -/
structure ReceiverSet where
  receivers : List Receiver
  distinct : (receivers.map (·.id)).Nodup

abbrev LookupQuery := TypeTag × Option TypeTag × Option TypeTag

abbrev Lookup := LookupQuery → Option (List Receiver)

/-- `lookup.entry(query).or_insert_with(HashSet::new).insert(recv)`. -/
def Lookup.enter (lookup : Lookup) (query : LookupQuery) (recv : Receiver) : Lookup :=
  Index.enter Receiver.id lookup (query, recv)

/-- The body of the inner loop of `BusInner::new`. -/
def Lookup.enterType (lookup : Lookup) (recv : Receiver) : TypeTagAcceptItem → Lookup
  | (msg, none) => lookup.enter (msg, none, none) recv
  | (msg, some (resp, err)) =>
    (((lookup.enter (msg, none, none) recv).enter (msg, some resp, none) recv).enter
      (msg, none, some err) recv).enter (msg, some resp, some err) recv

structure BusInner where
  receivers : ReceiverSet
  lookup : Lookup
  closed : Bool

namespace BusInner

def new (receivers : ReceiverSet) : BusInner where
  receivers := receivers
  lookup := receivers.receivers.foldl
    (fun lookup recv => recv.iterTypes.foldl (fun lookup ty => lookup.enterType recv ty) lookup)
    fun _ => none
  closed := false

def selectReceivers (b : BusInner) (tid : TypeTag) (options : SendOptions)
    (rid eid : Option TypeTag) (isReq : Bool) : List Receiver :=
  (((b.lookup (tid, rid, eid)).getD []).filter fun r => r.accept isReq tid rid eid).filter
    fun r => options.passes r.id

end BusInner

inductive CallKind where
  /-- `send_ext`, whose options are not looked at. -/
  | send
  /-- `send_one`. -/
  | sendOne
  | sendBoxed (options : SendOptions)
  | sendBoxedOne (options : SendOptions)
  /-- `request`, `request_we` and their boxed forms, which have no response tag. -/
  | request (options : SendOptions) (rid eid : Option TypeTag)

namespace CallKind

/-- The receivers a call sends to, in turn. -/
def select (b : BusInner) (tt : TypeTag) : CallKind → List Receiver
  | send => (b.lookup (tt, none, none)).getD []
  | sendOne => ((b.lookup (tt, none, none)).getD []).take 1
  | sendBoxed options =>
    match b.selectReceivers tt options none none false with
    | [] => []
    | first :: iter => iter ++ [first]
  | sendBoxedOne options => (b.selectReceivers tt options none none false).take 1
  | request options rid eid => (b.selectReceivers tt options rid eid true).take 1

/-- The typed requests do not look at the bus's `closed`. -/
def checksClosed : CallKind → Bool
  | request _ rid _ => rid.isNone
  | _ => true

/-- `send_boxed` unwraps a clone for each receiver. -/
def clones : CallKind → Bool
  | sendBoxed _ => true
  | _ => false

/-- The requests with an error type of their own, whose waiters a relay does not implement. -/
def withError : CallKind → Bool
  | request _ _ eid => eid.isSome
  | _ => false

def isReq : CallKind → Bool
  | request _ _ _ => true
  | _ => false

end CallKind

/-- `try_clone_boxed` gives a copy where the type is derived with `clone`. -/
class CloneMessage (S : Type) extends SharedMessage S where
  tryClone : S → Bool

inductive SendEnd (S : Type) where
  | returned (res : Except (Error S GenericError) Unit)
  /-- A receiver gives no permit. -/
  | waiting
  | panicked

structure Broadcast (S : Type) where
  /-- The receivers that were sent a copy, in turn, with it. -/
  handed : List (Receiver × S)
  done : SendEnd S

namespace BusInner

variable {S : Type} [CloneMessage S] (b : BusInner) (room : Receiver → Bool) (msg : S)

/-- A copy to each receiver in turn, once it gives a permit. -/
def sendEach (rs : List Receiver) : Broadcast S where
  handed := (rs.takeWhile room).map fun r => (r, msg)
  done := if rs.all room then .returned (.ok ()) else .waiting

def sendExt (_options : SendOptions) : Broadcast S :=
  if b.closed then ⟨[], .returned (.error (.sendError (.closed msg)))⟩
  else sendEach room msg (CallKind.send.select b (Message.typeTag msg))

/-- All permits are taken first. -/
def trySendExt (_options : SendOptions) : Broadcast S :=
  if b.closed then ⟨[], .returned (.error (.sendError (.closed msg)))⟩
  else
    let rs := CallKind.send.select b (Message.typeTag msg)
    if rs.all room then ⟨rs.map fun r => (r, msg), .returned (.ok ())⟩
    else ⟨[], .returned (.error (.sendError (.full msg)))⟩

/-- No permit is asked for. -/
def forceSendExt (_options : SendOptions) : Broadcast S :=
  if b.closed then ⟨[], .returned (.error (.sendError (.closed msg)))⟩
  else
    ⟨(CallKind.send.select b (Message.typeTag msg)).map fun r => (r, msg), .returned (.ok ())⟩

/-- The message is cloned for every receiver, and its copy unwrapped. -/
def sendBoxed (options : SendOptions) : Broadcast S :=
  if b.closed then ⟨[], .returned (.error (.sendError (.closed msg)))⟩
  else
    let rs := (CallKind.sendBoxed options).select b (Message.typeTag msg)
    if !rs.isEmpty && !CloneMessage.tryClone msg then ⟨[], .panicked⟩
    else sendEach room msg rs

/-- The four with the same options. -/
def broadcasts (options : SendOptions) : List (Broadcast S) :=
  [b.sendExt room msg options, b.trySendExt room msg options, b.forceSendExt msg options,
    b.sendBoxed room msg options]

end BusInner

end MessageBus
