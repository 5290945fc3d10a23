import PyNng.Common.Machine
import PyNng.Dispatch.Wakeup
import PyNng.Filter.Exposure
import PyNng.Filter.Anchor
import PyNng.Common.Evolve
import PyNng.Pipe.Model
import PyNng.Socket.Model
import PyNng.Socket.Filter
import PyNng.Socket.Lock
import PyNng.Socket.Mirror
import PyNng.Socket.Announce
import PyNng.Socket.UpdatePipes
import PyNng.Socket.Disconnect
import PyNng.Common.WeakDict
import PyNng.Dispatch.Model.Loop
import PyNng.Dispatch.Survival
import PyNng.Async.Model
import PyNng.Async.Routing
import PyNng.Async.Close
import PyNng.Transfer.Model
import PyNng.Transfer.Control
import PyNng.Transfer.Ownership
import PyNng.Common.Bytes
import PyNng.Filter.Lists
import PyNng.Common.Formula
import PyNng.Filter.Algebra
import PyNng.Filter.FirstWins
import PyNng.Message.Model
import PyNng.Message.Pinned
import PyNng.Pipe.Status
import PyNng.Socket.Status
import PyNng.Socket.Observe
import PyNng.Socket.Shadow
import PyNng.Socket.Closing
import PyNng.Socket.Removal
import PyNng.Pipe.Collection
import PyNng.Blocking.Model
import PyNng.Blocking.Send
import PyNng.Blocking.Recv
import PyNng.Dispatch.Drain
import PyNng.Proactor.Model
import PyNng.Proactor.Stranded
import PyNng.Common.Handle
import PyNng.Endpoint.Model
import PyNng.Endpoint.Add
import PyNng.Endpoint.Close
import PyNng.Common.UniqueLock
import PyNng.Message.Equality.Model
import PyNng.Message.Equality.Declared
import PyNng.Ready.Model
import PyNng.Ready.Wakeup
import PyNng.Socket.Listing
import PyNng.Socket.Present
import PyNng.Message.Pipe.Model
import PyNng.Message.Pipe.Registry
import PyNng.Message.Pipe.Answer
import PyNng.Mutex.Model
import PyNng.Mutex.Calls
import PyNng.Mutex.Recursive
import PyNng.Gil.Model
import PyNng.Gil.Owned
import PyNng.Gil.Progress
import PyNng.Tls.AltNames
import PyNng.Tls.Complete
import PyNng.Tls.Divided
import PyNng.Common.SharedPtr
import PyNng.Tls.Config
import PyNng.Tls.CoOwned
import PyNng.Handles.Model
import PyNng.Handles.Held
import PyNng.Handles.Released
import PyNng.Handles.Moved
import PyNng.Handles.Order
import PyNng.Callback.Exit
import PyNng.Common.Exclusion
import PyNng.Dispatch.Model.Monitor
import PyNng.Dispatch.Monitor
import PyNng.Dispatch.Settles
import PyNng.Library.Dispatcher
import PyNng.Attribution.Exact
import PyNng.Common.Codec
import PyNng.Message.Typed
import PyNng.Readers.Closed
import PyNng.Dispatch.Served
import PyNng.Tls.Configured
import PyNng.Proactor.Ended
import PyNng.Proactor.WindUp
