import MessageBus.Bus
import MessageBus.Lib.Sweep
import Mathlib.Logic.Function.Basic

/-!
# `Bus::flush_all`, `Bus::flush` and `Bus::flush2`, a receiver at a time

`flush_all` (`src/lib.rs`) makes at most 32 passes over the receivers of the bus. Here the flush of
a receiver is one step: its handlers take what is queued, in order, each handler may send to other
receivers, and what it sends sets their `need_flush`; the end of the flush clears the receiver's
own. `Handlers.traced` gives every message the receivers it was forwarded through, for
`Inboxes.chains` to list the forwarding chains of a run. The typed flushes make the same passes over
the receivers that take messages of one type, or of one of two. Each pass selects them anew, from an
index that does not change.
-/

namespace MessageBus

/-- What the handler of receiver `r` does with a message: it changes the state `σ` that handlers
share, and sends messages to receivers other than `r`. -/
abbrev Handlers (σ ι M : Type*) := σ → (r : ι) → M → σ × List ({ dst : ι // dst ≠ r } × M)

/-- The receivers of a bus between two flushes. -/
structure Inboxes (σ ι M : Type*) where
  shared : σ
  queue : ι → List M
  needFlush : ι → Bool

namespace Inboxes

variable {σ ι M : Type*} [DecidableEq ι]

/-- `Receiver::send`: the message is queued, and the flag set. -/
def send (b : Inboxes σ ι M) (dst : ι) (msg : M) : Inboxes σ ι M :=
  { b with
    queue := Function.update b.queue dst (b.queue dst ++ [msg])
    needFlush := Function.update b.needFlush dst true }

def sendAll {p : ι → Prop} (b : Inboxes σ ι M) (sent : List ({ dst : ι // p dst } × M)) :
    Inboxes σ ι M :=
  sent.foldl (fun b s => b.send s.1 s.2) b

variable (h : Handlers σ ι M)

/-- The handler of `r` takes one message. -/
def handle (r : ι) (b : Inboxes σ ι M) (msg : M) : Inboxes σ ι M :=
  sendAll { b with shared := (h b.shared r msg).1 } (h b.shared r msg).2

/-- `Receiver::flush` on `r`, up to its `Flushed`. -/
def flush (b : Inboxes σ ι M) (r : ι) : Inboxes σ ι M :=
  let handled := (b.queue r).foldl (handle h r) { b with queue := Function.update b.queue r [] }
  { handled with needFlush := Function.update handled.needFlush r false }

/-- `Bus::flush_all`, where `order` is the order in which the set of receivers is iterated. -/
def flushAll (order : List ι) (b : Inboxes σ ι M) : Sweep.End (Inboxes σ ι M) :=
  Sweep.run needFlush (flush h) order 32 0 b

end Inboxes

/-- A message and the receivers it was forwarded through, the last one its own. -/
structure Traced (ι M : Type*) where
  msg : M
  path : List ι

/-- The same handlers, with paths on the messages; `σ` also lists the paths of the messages handled
so far. -/
def Handlers.traced {σ ι M : Type*} (h : Handlers σ ι M) :
    Handlers (σ × List (List ι)) ι (Traced ι M) :=
  fun s r m =>
    (((h s.1 r m.msg).1, s.2 ++ [m.path]),
      (h s.1 r m.msg).2.map fun out => (out.1, ⟨out.2, m.path ++ [out.1.1]⟩))

namespace Inboxes

variable {σ ι M : Type*} [DecidableEq ι]

def traced (b : Inboxes σ ι M) : Inboxes (σ × List (List ι)) ι (Traced ι M) where
  shared := (b.shared, [])
  queue r := (b.queue r).map (⟨·, [r]⟩)
  needFlush := b.needFlush

/-- The forwarding chains of `flush_all`: for each message handled, the receivers from the one that
had the first message of the chain queued at the start, to its own. -/
def chains (h : Handlers σ ι M) (order : List ι) (b : Inboxes σ ι M) : List (List ι) :=
  (flushAll h.traced order b.traced).state.shared.2

end Inboxes

namespace BusInner

variable {σ M : Type*} (bus : BusInner)

/-- The receivers a pass over these types looks at, by their ids. -/
def flushOrder (tts : List TypeTag) : List UInt64 :=
  tts.flatMap fun tt => (bus.selectReceivers tt .broadcast none none false).map Receiver.id

def flushTyped (h : Handlers σ UInt64 M) (tts : List TypeTag) (b : Inboxes σ UInt64 M) :
    Sweep.End (Inboxes σ UInt64 M) :=
  Sweep.run Inboxes.needFlush (Inboxes.flush h) (bus.flushOrder tts) 32 0 b

def flush (h : Handlers σ UInt64 M) (tt : TypeTag) (b : Inboxes σ UInt64 M) :
    Sweep.End (Inboxes σ UInt64 M) :=
  bus.flushTyped h [tt] b

/-- A receiver of both types is looked at twice in a pass. -/
def flush2 (h : Handlers σ UInt64 M) (tt₁ tt₂ : TypeTag) (b : Inboxes σ UInt64 M) :
    Sweep.End (Inboxes σ UInt64 M) :=
  bus.flushTyped h [tt₁, tt₂] b

end BusInner

end MessageBus
