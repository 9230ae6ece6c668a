import RespGateway.Backend
import RespGateway.Cache.Bridge
import RespGateway.Routes
import RespGateway.Store
import RespGateway.Text.Span

/-!
# The gateway

The gateway takes on one command after another. A command that a handler claims goes
to the handler; any other goes to the cache, if it is one that the cache serves. The
call may return, fail, break down, take too long or hang: every exchange gets exactly
one reply, and what went wrong is not told to the client.

A command has two moments. `Gateway.launch` takes it on: the call is made, and with it
is settled when and how the command will end. `Landing.land` is the end: a query that
the store is to answer is answered then and not before, so between the two other
commands may change the store. It is answered at one go here; what else may happen while
it is, a `Store.Errand` tells.
-/

namespace RespGateway

/-! ## Calls and their ends -/

/-- How commands are served. -/
structure Gateway where
  routes : Routes
  backend : Backend := .plain
  /-- How many milliseconds a call may take. -/
  limit : Option Nat := some 5000

/-- A call of the gateway. -/
inductive Call where
  /-- A handler was called with an exchange. -/
  | handler (name : String) (builtIn : Bool) (x : Exchange)
  /-- The backend was called with a query. -/
  | backend (q : Cache.Query)
  deriving DecidableEq, Repr

/-- Whether a call left the gateway: the handlers that belong to the gateway are part of it. -/
def Call.isExternal : Call → Bool
  | .handler _ builtIn _ => !builtIn
  | .backend _ => true

/-- A point in time. Of the calls that end at one time those come first that nobody waits for any
more, or that were never made: the others still have to hand over what they return. -/
structure Moment where
  time : Nat
  /-- Zero, or one for a call that hands over what it returns. -/
  turn : Nat
  deriving DecidableEq, Repr

/-- Whether one moment is not after another. -/
def Moment.notAfter (a b : Moment) : Bool :=
  decide (a.time < b.time) || (a.time == b.time && decide (a.turn ≤ b.turn))

/-- A moment counted from a time. -/
def Moment.after (start : Nat) (m : Moment) : Moment := { m with time := start + m.time }

/-- How a command ends. -/
inductive Landing where
  /-- With an exchange that has its reply. -/
  | reply (x : Exchange)
  /-- With a reply to the exchange. -/
  | answer (x : Exchange) (r : Reply)
  /-- With the store's answer to a query. -/
  | serve (x : Exchange) (q : Cache.Query)
  deriving DecidableEq, Repr

/-- What comes of taking on a command. -/
structure Launch where
  /-- The call made, if any. -/
  call : Option Call
  /-- When and how it ends, unless it hangs with nobody to stop it. -/
  outcome : Option (Moment × Landing)
  deriving DecidableEq, Repr

namespace Gateway

/-! ## Taking on a command -/

/-- The exchange that a handler returned. Without a reply it counts as a failure. -/
def handedBack (x : Exchange) : Ending Handler.Failure Exchange → Exchange
  | .returned y => if y.response.isSome then y else .failed x.command x.client Reply.operationError
  | .failed _ => .failed x.command x.client Reply.operationError
  | .crashed _ => .failed x.command x.client Reply.operationError

/-- A command that a handler serves. -/
def launchHandler (g : Gateway) (h : Handler) (ticket : Nat) (x : Exchange) : Launch :=
  let call := some (Call.handler h.name h.builtIn x)
  let timedOut := Landing.reply (.failed x.command x.client Reply.operationTimedOut)
  match (h.act ticket x).course g.limit with
  | .withheld => ⟨none, some (⟨0, 0⟩, timedOut)⟩
  | .late after => ⟨call, some (⟨after, 0⟩, timedOut)⟩
  | .ended after ending => ⟨call, some (⟨after, 1⟩, .reply (handedBack x ending))⟩
  | .endless => ⟨call, none⟩

/-- How a query ends whose call ended in time. -/
def served (x : Exchange) (q : Cache.Query) :
    Ending Backend.Unavailable Backend.Source → Landing
  | .returned .store => .serve x q
  | .returned (.fixed answer) => .answer x (answer.reply x.command)
  | .failed _ => .answer x (.generic Reply.operationError)
  | .crashed _ => .answer x (.generic Reply.operationError)

/-- A command that the cache serves. -/
def launchQuery (g : Gateway) (q : Cache.Query) (ticket : Nat) (x : Exchange) : Launch :=
  let call := some (Call.backend q)
  let timedOut := Landing.answer x (.generic Reply.operationTimedOut)
  match (g.backend.act ticket q).course g.limit with
  | .withheld => ⟨none, some (⟨0, 0⟩, timedOut)⟩
  | .late after => ⟨call, some (⟨after, 0⟩, timedOut)⟩
  | .ended after ending => ⟨call, some (⟨after, 1⟩, served x q ending)⟩
  | .endless => ⟨call, none⟩

/-- Takes on a command. -/
def launch (g : Gateway) (ticket : Nat) (x : Exchange) : Launch :=
  match g.routes.lookup x.command with
  | some h => g.launchHandler h ticket x
  | none =>
    match x.query? with
    | some q => g.launchQuery q ticket x
    | none => ⟨none, some (⟨0, 0⟩, .answer x (.generic Reply.unsupportedOperation))⟩

end Gateway

/-- The end of a command: the exchange with its reply, unless it had one before, and the store. -/
def Landing.land (s : Store) : Landing → Except Exchange.AnsweredTwice Exchange × Store
  | .reply x => (.ok x, s)
  | .answer x r => (x.respond r, s)
  | .serve x q =>
    let (result, s) := s.answer q
    (x.respond (result.reply x.command), s)

/-- The reply of the store to an exchange that nothing else has a part in, if it is one that the
cache serves. -/
def Store.reply? (s : Store) (x : Exchange) : Option Reply × Store :=
  match x.query? with
  | none => (none, s)
  | some q =>
    let (result, s) := s.answer q
    (some (result.reply x.command), s)

namespace Gateway

/-- The gateway in one line. -/
def summary (g : Gateway) : String :=
  let limit :=
    match g.limit with
    | none => "None"
    | some milliseconds => "Some(" ++ Text.span milliseconds ++ ")"
  "Dispatcher \x7b registry: " ++ g.routes.summary ++ ", command_timeout: " ++ limit ++ " \x7d"

end Gateway

end RespGateway
