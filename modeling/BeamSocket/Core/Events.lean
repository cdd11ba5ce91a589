import BeamSocket.Core.Ids
import BeamSocket.Lib.Bytes

/-!
# Events for the bridge

Model of `crates/core/src/events.rs`. The channel is a tokio mpsc: it has a permit for
every free slot, `try_send` takes one or fails, `send` waits for one and then pushes, and a
receive gives it back.
-/

namespace BeamSocket.Core

open BeamSocket.Lib

/-- `enum EngineEvent` (lines 27–64). -/
inductive EngineEvent
  | authorize (requestId : UInt64) (clientIp url : String) (headers : List (String × String))
  | connectionOpened (id : ConnectionId) (authRequest : Option UInt64)
  | message (id : ConnectionId) (payload : Bytes) (isBinary : Bool)
  | connectionClosed (id : ConnectionId) (code : UInt16) (reason : String)
  deriving DecidableEq, Repr

/-- `struct EventSender` (lines 68–72) with the channel behind it and the counter it
    advances. -/
structure EventSender where
  permits : ℕ
  queue : List EngineEvent
  /-- The receiver is gone. -/
  closed : Bool
  bridgeDropped : ℕ
  deriving DecidableEq, Repr

namespace EventSender

variable (tx : EventSender)

/-- `EventSender::bounded`. -/
def bounded (capacity : ℕ) : EventSender :=
  { permits := capacity, queue := [], closed := false, bridgeDropped := 0 }

/-- The value of a permit that was taken is in the queue. -/
def push (ev : EngineEvent) : EventSender := { tx with queue := tx.queue ++ [ev] }

/-- A permit is taken. -/
def acquire : EventSender := { tx with permits := tx.permits - 1 }

/-- `try_message` (lines 87–102). -/
def tryMessage (id : ConnectionId) (payload : Bytes) (isBinary : Bool) : EventSender :=
  if tx.closed then tx
  else if tx.permits = 0 then { tx with bridgeDropped := tx.bridgeDropped + 1 }
  else tx.acquire.push (.message id payload isBinary)

/-- The channel after a receive. -/
def received : EventSender := { tx with permits := tx.permits + 1, queue := tx.queue.tail }

end EventSender

end BeamSocket.Core
