import MessageBus.Admission
import MessageBus.Backpressure
import MessageBus.Batched
import MessageBus.BiStreams
import MessageBus.Builder
import MessageBus.Bus
import MessageBus.BusClosing
import MessageBus.Callers
import MessageBus.Closers
import MessageBus.Error
import MessageBus.Event
import MessageBus.Exchange
import MessageBus.FlushAll
import MessageBus.Framing
import MessageBus.Idle
import MessageBus.Lib.Batching
import MessageBus.Lib.Bytes
import MessageBus.Lib.Delimited
import MessageBus.Lib.Handover
import MessageBus.Lib.Index
import MessageBus.Lib.Lts
import MessageBus.Lib.Notify
import MessageBus.Lib.Pool
import MessageBus.Lib.Progress
import MessageBus.Lib.Semaphore
import MessageBus.Lib.Simulation
import MessageBus.Lib.Slab
import MessageBus.Lib.Sweep
import MessageBus.Lib.Utf8Lossy
import MessageBus.Link
import MessageBus.NeedFlush
import MessageBus.Node
import MessageBus.Operations
import MessageBus.Proofs.Admission
import MessageBus.Proofs.Backpressure
import MessageBus.Proofs.BatchBarrier
import MessageBus.Proofs.BatchClose
import MessageBus.Proofs.BatchLog
import MessageBus.Proofs.BatchOrder
import MessageBus.Proofs.BatchSettling
import MessageBus.Proofs.BatchSplit
import MessageBus.Proofs.BiStreams
import MessageBus.Proofs.Bounded
import MessageBus.Proofs.Broadcast
import MessageBus.Proofs.Builder
import MessageBus.Proofs.BusClosing
import MessageBus.Proofs.CallSelect
import MessageBus.Proofs.Callers
import MessageBus.Proofs.Cancellation
import MessageBus.Proofs.ClosedBus
import MessageBus.Proofs.Closers
import MessageBus.Proofs.Closing
import MessageBus.Proofs.Correlation
import MessageBus.Proofs.Counted
import MessageBus.Proofs.DecodePanic
import MessageBus.Proofs.Echo
import MessageBus.Proofs.Errors
import MessageBus.Proofs.Exchange
import MessageBus.Proofs.Exclusion
import MessageBus.Proofs.FailedRequests
import MessageBus.Proofs.FlushAll
import MessageBus.Proofs.FlushCallers
import MessageBus.Proofs.FlushTyped
import MessageBus.Proofs.Framing
import MessageBus.Proofs.Idle
import MessageBus.Proofs.Inflow
import MessageBus.Proofs.Limits
import MessageBus.Proofs.Linear
import MessageBus.Proofs.Link
import MessageBus.Proofs.NeedFlush
import MessageBus.Proofs.NoEcho
import MessageBus.Proofs.Operations
import MessageBus.Proofs.OwnAction
import MessageBus.Proofs.Pipes
import MessageBus.Proofs.QuicWire
import MessageBus.Proofs.Ready
import MessageBus.Proofs.Reconnect
import MessageBus.Proofs.RelayCounters
import MessageBus.Proofs.RelayFlush
import MessageBus.Proofs.RelayPeer
import MessageBus.Proofs.Replies
import MessageBus.Proofs.Requests
import MessageBus.Proofs.Reserve
import MessageBus.Proofs.Responses
import MessageBus.Proofs.Returning
import MessageBus.Proofs.RoundTrip
import MessageBus.Proofs.Select
import MessageBus.Proofs.SelfAwait
import MessageBus.Proofs.SendBoxed
import MessageBus.Proofs.Serving
import MessageBus.Proofs.Settling
import MessageBus.Proofs.Slots
import MessageBus.Proofs.Tags
import MessageBus.Proofs.Tokens
import MessageBus.Proofs.TrySend
import MessageBus.Proofs.Unbatched
import MessageBus.Proofs.Waiters
import MessageBus.Proofs.Writers
import MessageBus.Proto
import MessageBus.Ready
import MessageBus.Receiver
import MessageBus.Reconnect
import MessageBus.Relay
import MessageBus.Requests
import MessageBus.Reserve
import MessageBus.Responses
import MessageBus.Served
import MessageBus.Serving
import MessageBus.Slots
import MessageBus.Tags
import MessageBus.TcpRelay
import MessageBus.Unbatched
import MessageBus.Writers
