import RespGateway.Attempt
import RespGateway.Exchange

/-!
# Handlers

A handler claims commands and serves them. It is called with an exchange and, if all
goes well, returns one with a reply. What it does may depend on the ticket of the
call, the number that the gateway gives each command it takes on: so a handler may do
something else at every call.
-/

namespace RespGateway

/-- Why a handler fails. -/
inductive Handler.Failure where
  /-- The handler was called with a command it does not serve. -/
  | unsupported (handler : String) (command : Command)
  | failed (text : String)
  deriving DecidableEq, Repr

/-- The wording of a failure; clients are not told. -/
def Handler.Failure.message : Handler.Failure → String
  | .unsupported handler command =>
    "handler '" ++ handler ++ "' does not support " ++ command.name
  | .failed text => text

/-- What serves some commands. -/
structure Handler where
  name : String
  /-- The commands that the handler claims. -/
  commands : List Command
  /-- Whether the handler belongs to the gateway itself. -/
  builtIn : Bool := false
  /-- What the handler does when it is called with a ticket and an exchange. -/
  act : Nat → Exchange → Attempt Handler.Failure Exchange

namespace Handler

/-- A call that answers the exchange with a reply after a delay. It crashes if the exchange has been
answered already. -/
def answering (delay : Nat) (x : Exchange) (r : Reply) : Attempt Failure Exchange :=
  match x.respond r with
  | .ok answered => .ends delay (.returned answered)
  | .error twice => .ends delay (.crashed twice.message)

/-- The reply of the connection handler. -/
def connectionReply (x : Exchange) : Except Failure Reply :=
  match x.command, x.args with
  | .ping, [] => .ok .pong
  | .ping, text :: _ => .ok (.bulk text)
  | .echo, [] => .error (.failed "ECHO without a message")
  | .echo, text :: _ => .ok (.bulk text)
  | .quit, _ => .ok .ok
  | other, _ => .error (.unsupported "connection" other)

/-- The handler of the commands that are about the connection itself. -/
def connection : Handler where
  name := "connection"
  commands := [.ping, .echo, .quit]
  builtIn := true
  act _ x :=
    match connectionReply x with
    | .ok r => answering 0 x r
    | .error why => .ends 0 (.failed why)

end Handler

end RespGateway
