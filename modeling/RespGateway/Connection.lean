import RespGateway.Connection.Writer
import RespGateway.Gateway.State
import RespGateway.Request

/-!
# Connections

What the gateway keeps for one client: what has arrived, the reader that makes
requests of it, the commands that are under way, and the writer that sends the
replies.

The reader works on its own while commands are under way. In ordered mode it waits for
the reply to each command before it looks at the next request; in unordered mode it
goes on, and replies are sent as they come. A `QUIT` is taken on when no command is
under way any more, and is the last command that the reader takes on.
-/

namespace RespGateway

/-! ## How a connection ends -/

/-- What can go wrong with a connection. -/
inductive Trouble where
  /-- What the client sent is no request. -/
  | malformed (fault : Request.Fault)
  /-- The client stopped sending in the middle of a request. -/
  | cutShort
  /-- A request does not end within the space for it. -/
  | oversized
  /-- The client broke the connection off: reading from it or writing to it failed. -/
  | reset
  deriving DecidableEq, Repr

/-- The wording of a trouble. -/
def Trouble.message : Trouble → String
  | .malformed fault => "Parse error: " ++ fault.message
  | .cutShort => "Unexpected end of stream"
  | .oversized => "Buffer size limit exceeded"
  | .reset => "I/O error: Connection reset by peer (os error 104)"

/-- What the client is told of a trouble, if anything. -/
def Trouble.reply? : Trouble → Option Reply
  | .malformed fault => some (.generic ("Protocol error: " ++ fault.message))
  | .oversized => some (.generic "Protocol error: request exceeds max buffer")
  | .cutShort => none
  | .reset => none

/-- Why the reader of a connection has ended. -/
inductive Departure where
  /-- A `QUIT` was answered. -/
  | quit
  /-- The client stopped sending between two requests. -/
  | left
  | troubled (trouble : Trouble)
  deriving DecidableEq, Repr

/-- The trouble that the connection ended with. -/
def Departure.trouble? : Departure → Option Trouble
  | .quit => none
  | .left => none
  | .troubled trouble => some trouble

/-- Why a connection has ended, by why its reader has ended and whether its writer was lost. The
loss is told only where the reader has ended well, with a `QUIT`. -/
def Departure.withLoss (why : Departure) (isLost : Bool) : Departure :=
  match why with
  | .quit => if isLost then .troubled .reset else .quit
  | .left => .left
  | .troubled trouble => .troubled trouble

theorem Departure.withLoss_false (why : Departure) : why.withLoss false = why := by
  cases why <;> rfl

/-! ## The connection -/

/-- What reaches the gateway from a client. -/
inductive Arrival where
  /-- Bytes that are read at one go. -/
  | bytes (piece : Bytes)
  /-- The client sends no more. -/
  | endOfInput
  /-- The client breaks the connection off. -/
  | reset
  deriving DecidableEq, Repr

/-- Where the reader of a connection stands. -/
inductive Reader where
  /-- It looks for the next request. -/
  | reading
  /-- It waits for the end of a command; the flag tells whether that command is the last. -/
  | awaiting (ticket : Nat) (last : Bool)
  /-- It waits for the end of all commands under way before it takes on a last one. -/
  | draining (farewell : Exchange)
  | finished (why : Departure)
  deriving DecidableEq, Repr

/-- The reader after the end of a command. -/
def Reader.afterLanding (ticket : Nat) : Reader → Reader
  | .awaiting awaited last =>
    if awaited = ticket then (if last then .finished .quit else .reading)
    else .awaiting awaited last
  | other => other

/-- What the gateway keeps for one client. -/
structure Connection where
  session : UInt64
  /-- What has arrived and has not been read. -/
  inbox : List Arrival := []
  /-- What has been read and has not been used. -/
  buffer : Bytes := []
  reader : Reader := .reading
  /-- The commands under way, in the order in which they were taken on. -/
  flights : List Flight := []
  writer : Writer := .ofSession session
  /-- Whether the end of the connection has been made known. -/
  departed : Bool := false
  deriving DecidableEq, Repr

namespace Connection

/-- How the connections of a server are run. -/
structure Options where
  /-- Whether replies come in the order of the requests. -/
  ordered : Bool := true
  /-- How many unused bytes a connection may hold and still read on. -/
  maxBuffer : Nat := 65536
  deriving DecidableEq, Repr

/-- The connection with something put in its outbox. -/
def offer (c : Connection) (item : Outgoing) : Connection :=
  { c with writer := c.writer.offer item }

/-- The reader ends, and the client is told why if it is to be told. -/
def finish (c : Connection) (why : Departure) : Connection :=
  let told :=
    match why.trouble?.bind Trouble.reply? with
    | some r => c.offer (.rejection r)
    | none => c
  { told with reader := .finished why }

/-- Whether the reader has ended. -/
def isFinished (c : Connection) : Bool :=
  match c.reader with
  | .finished _ => true
  | _ => false

/-- Whether the client has broken the connection off. -/
def isBroken (c : Connection) : Bool :=
  c.inbox.contains .reset || c.reader == .finished (.troubled .reset)

/-- Whether the gateway has closed the connection. -/
def isClosed (c : Connection) : Bool := c.writer.isStopped && !c.isBroken

end Connection

end RespGateway
