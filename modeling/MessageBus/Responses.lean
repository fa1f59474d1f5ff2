import MessageBus.Operations
import MessageBus.Served

/-!
# What the caller of a request gets for its response

The futures of the four `add_response_waiter`s in `src/receiver.rs`, with what the request methods
of `src/lib.rs` make of what they resolve to. `Answer` is a `Response` of the receiver's stream:
a local poller's, or one that a relay has decoded.
-/

namespace MessageBus

/-- How a request ends once its channel has brought something; the methods that end in `_we` return
the handler's error as it is. -/
inductive RequestEnd (S E : Type) where
  | plain (res : Except (Error S GenericError) S)
  | withError (res : Except (Error S E) S)
  | panicked

section Future

variable {M R E : Type}

/-- `map_err(|x| x.specify())`. -/
def specified (res : Except (Error Unit E) R) : Option (Except (Error M E) R) :=
  match res with
  | .ok x => some (.ok x)
  | .error err => err.specify.map .error

/-- The `right_future` of `add_response_waiter`, of a relay, unwraps the downcast. -/
def downcast {S T : Type} [TypeTagged T] [DecidableEq T] [TypedMessage S T] (resp : T)
    (x : Except (Error Unit E) S) : Option (Except (Error Unit E) S) :=
  match x with
  | .ok x => if TypedMessage.typeId x = resp then some (.ok x) else none
  | .error x => some (.error x)

def RequestEnd.ofPlain : Option (Except (Error M GenericError) M) → RequestEnd M E
  | some res => .plain res
  | none => .panicked

def RequestEnd.ofWithError : Option (Except (Error M E) M) → RequestEnd M E
  | some res => .withError res
  | none => .panicked

end Future

section Receive

variable {S T E : Type} [TypeTagged T] [DecidableEq T] [TypedMessage S T]

/-- The end of a request by what `rx.await` gives, nothing where its sender was dropped; `none`
where the channel is of another kind than its method's. -/
def Operation.receive (op : Operation S T) (rx : Option (Reply S E S)) :
    Option (RequestEnd S E) :=
  match op, rx with
  | request _ _ _, some (.withoutErrorType x) => some (.ofPlain (specified x))
  | request _ _ resp, some (.boxed x) => some (.ofPlain ((downcast resp x).bind specified))
  | requestWe _ _ _ _, some (.withErrorType x) => some (.ofWithError (specified x))
  | requestBoxed _ _, some (.boxed x) => some (.ofPlain (specified x))
  | requestDeserialize _ _ _, some (.boxed x) => some (.ofPlain (specified x))
  | requestBoxedWe _ _ _, some (.boxedWithError x) => some (.ofWithError (specified x))
  | request _ _ _, none => some (.ofPlain (specified (.error .noResponse)))
  | requestBoxed _ _, none => some (.ofPlain (specified (.error .noResponse)))
  | requestDeserialize _ _ _, none => some (.ofPlain (specified (.error .noResponse)))
  | requestWe _ _ _ _, none => some (.ofWithError (specified (.error .noResponse)))
  | requestBoxedWe _ _ _, none => some (.ofWithError (specified (.error .noResponse)))
  | _, _ => none

end Receive

/-- The result of a `Response`, of a local receiver or of a relay. -/
inductive Answer (S E : Type) where
  | typed (res : Except (Error Unit E) S)
  | relay (res : Except (Error Unit GenericError) S)

section Deliver

variable {S T E : Type} [SharedMessage S] [StdSyncSendError E]

/-- The channel `tx` once the receiver's loop has handled the response, if its caller waits. -/
def BusReceiver.deliver (r : BusReceiver S T) (mid : UInt64) (tx : ℕ) (ans : Answer S E) :
    Oneshot (Reply S E S) :=
  match r, ans with
  | typed _ wrapper _ _, .typed res =>
    (handleEvent id wrapper (fun _ => .waiting) (.response mid res)).chans tx
  | relay _ wrapper _, .relay res =>
    match (wrapper.handleEvent (fun _ => .waiting) (.response mid res)).chans tx with
    | .sent res => .sent (.boxed res)
    | .waiting => .waiting
    | .dropped => .dropped
  | _, _ => .waiting

end Deliver

/-- The events on the streams of the four pollers, whatever runs they are in. -/
inductive OnStream : (M R E : Type) → Event R E → Prop
  | bufferUnordered {M R E : Type} (cfg : BufferUnorderedConfig) {s : BufferUnordered M R E}
      (h : (bufferUnorderedPoller M R E cfg).Reachable s) {ev : Event R E} (hev : ev ∈ s.stx) :
      OnStream M R E ev
  | synchronized {ι H : Type} [DecidableEq ι] {M R E : ι → Type}
      (f : SynchronizedHandler M R E H) (h₀ : H) {s : SynchronizedItem M R E H}
      (h : (synchronizedItem f h₀).Reachable s) (i : ι) {ev : Event (R i) (E i)}
      (hev : ev ∈ (s.subs i).stx) : OnStream (M i) (R i) (E i) ev
  | bufferUnorderedBatched {M R E : Type} (cfg : BufferUnorderedBatchedConfig)
      {s : BufferUnorderedBatched M R E}
      (h : (withPanics (bufferUnorderedBatchPoller M R E cfg)
        (BufferUnorderedBatched.panic cfg)).Reachable s)
      {ev : Event R E} (hev : ev ∈ s.core.stx) : OnStream M R E ev
  | synchronizedBatched {M R E : Type} (cfg : SynchronizedBatchedConfig)
      {s : SynchronizedBatched M R E}
      (h : (withPanics (batchSynchronizedPoller M R E cfg) SynchronizedBatched.panic).Reachable s)
      {ev : Event R E} (hev : ev ∈ s.core.stx) : OnStream M R E ev

section CanDeliver

variable {S T E : Type} [TypeTagged T] [TypedMessage S T]

/-- The messages of a type. -/
abbrev MessageOf (S : Type) {T : Type} [TypeTagged T] [TypedMessage S T] (t : T) : Type :=
  { x : S // TypedMessage.typeId x = t }

/-- A local receiver's stream is its poller's; a relay's has whatever its decoder makes of a packet
of the peer. -/
def BusReceiver.CanDeliver (c : Codec S) (r : BusReceiver S T) (mid : UInt64) :
    Answer S E → Prop
  | .typed res =>
    match r with
    | typed types _ _ _ => ∃ x : Except (Error Unit E) (MessageOf S types.r),
        OnStream (MessageOf S types.m) (MessageOf S types.r) E (.response mid x) ∧
          res = x.map Subtype.val
    | relay _ _ _ => False
  | .relay res =>
    match r with
    | typed _ _ _ _ => False
    | relay _ _ _ => ∃ packet : ProtocolPacket,
        packet.deserialize c = some (.ok (.event (.response mid res)))

end CanDeliver

end MessageBus
