import RespGateway.Command
import RespGateway.Reply

/-!
# Exchanges

One command of one client, and the reply to it once there is one. `Exchange.decode`
makes an exchange of the arguments of a request, or refuses them with an error that
goes to the client as one reply. The reply to an exchange is set once; `respond`
reports an attempt to set it again.
-/

namespace RespGateway

/-- A command of a client and the reply to it. -/
structure Exchange where
  command : Command
  /-- The session of the client that sent the command. -/
  client : UInt64
  /-- The arguments, without the name of the command. -/
  args : List Bytes
  response : Option Reply := none
  deriving DecidableEq, Repr

namespace Exchange

/-! ## Arguments of a request -/

/-- Why the arguments of a request are no command. -/
inductive Refusal where
  /-- No command has this name, shown as far as it is echoed. -/
  | unknownCommand (shown : String)
  /-- The command takes another number of arguments. -/
  | wrongArity (command : Command)
  deriving DecidableEq, Repr

/-- The wording of a refusal. -/
def Refusal.message : Refusal → String
  | .unknownCommand shown => "ERR unknown command '" ++ shown ++ "'"
  | .wrongArity command => "ERR wrong number of arguments for '" ++ command.name ++ "' command"

/-- What the client is told. -/
def Refusal.reply (r : Refusal) : Reply := .error r.message

/-- How many bytes of an unknown name are echoed. -/
def maxEchoed : Nat := 128

/-- An unknown name as it is echoed. -/
def echoed (name : Bytes) : String := String.ofList (Text.Utf8.lossy (name.take maxEchoed))

/-- The exchange that a client opens with the arguments of a request. -/
def decode (client : UInt64) : List Bytes → Except Refusal Exchange
  | [] => .error (.unknownCommand "")
  | name :: args =>
    match Command.ofName? name with
    | none => .error (.unknownCommand (echoed name))
    | some command =>
      if command.arity.accepts args.length then .ok { command, client, args }
      else .error (.wrongArity command)

/-! ## The reply -/

/-- The key that a command is about: its first argument. -/
def key? (x : Exchange) : Option Bytes := x.args.head?

/-- A second reply to one exchange. -/
structure AnsweredTwice where
  command : Command
  deriving DecidableEq, Repr

/-- The wording of a second reply. -/
def AnsweredTwice.message (e : AnsweredTwice) : String :=
  "response already set for " ++ e.command.name

/-- Sets the reply. The first reply stays. -/
def respond (x : Exchange) (r : Reply) : Except AnsweredTwice Exchange :=
  match x.response with
  | none => .ok { x with response := some r }
  | some _ => .error ⟨x.command⟩

/-- An exchange without arguments that was answered by an error. -/
def failed (command : Command) (client : UInt64) (text : String) : Exchange :=
  { command, client, args := [], response := some (.generic text) }

end Exchange

end RespGateway
