import RespGateway.Exchange

/-!
# Outboxes

What is to be sent to a client waits in an outbox: replies to exchanges and errors for
requests that were refused, in the order in which they were put in. Whoever sends them
takes them out at the other end, and may close the outbox; then nothing can be put in.
-/

namespace RespGateway

/-- Something to be sent to a client. -/
inductive Outgoing where
  /-- An exchange with its reply. -/
  | reply (x : Exchange)
  /-- The error for a request that was refused. -/
  | rejection (r : Reply)
  deriving DecidableEq, Repr

/-- What the client is sent. An exchange that lacks its reply is answered by an error. -/
def Outgoing.content : Outgoing → Reply
  | .reply x => x.response.getD (.generic Reply.operationError)
  | .rejection r => r

/-- Whether the connection ends after this. -/
def Outgoing.isLast : Outgoing → Bool
  | .reply x => x.command == .quit
  | .rejection _ => false

/-- What waits to be sent on a session. -/
structure Outbox where
  session : UInt64
  waiting : List Outgoing := []
  isOpen : Bool := true
  deriving DecidableEq, Repr

namespace Outbox

/-- The outbox of a session has been closed. -/
structure Closed where
  session : UInt64
  deriving DecidableEq, Repr

/-- The wording of a closed outbox. -/
def Closed.message (c : Closed) : String := "session " ++ toString c.session ++ " is closed"

/-- Puts something in. -/
def push (o : Outbox) (item : Outgoing) : Except Closed Outbox :=
  if o.isOpen then .ok { o with waiting := o.waiting ++ [item] } else .error ⟨o.session⟩

/-- Puts in the reply to an exchange. -/
def send (o : Outbox) (x : Exchange) : Except Closed Outbox := o.push (.reply x)

/-- Puts in the error for a request that was refused. -/
def reject (o : Outbox) (r : Reply) : Except Closed Outbox := o.push (.rejection r)

/-- Puts something in, or drops it if the outbox has been closed. -/
def offer (o : Outbox) (item : Outgoing) : Outbox :=
  match o.push item with
  | .ok o => o
  | .error _ => o

/-- Takes out what has waited longest. -/
def take? (o : Outbox) : Option (Outgoing × Outbox) :=
  match o.waiting with
  | [] => none
  | item :: waiting => some (item, { o with waiting })

/-- Closes the outbox; what waits in it is lost. -/
def close (o : Outbox) : Outbox := { o with waiting := [], isOpen := false }

end Outbox

end RespGateway
