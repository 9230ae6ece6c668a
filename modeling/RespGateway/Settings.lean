import RespGateway.Connection
import RespGateway.Server

/-!
# Settings

What can be chosen about a server, and what is chosen where nothing is said.
-/

namespace RespGateway

/-- What can be chosen about a server. -/
structure Settings where
  host : String := "127.0.0.1"
  port : UInt16 := 6379
  /-- How many milliseconds a command may take. -/
  limit : Option Nat := some 5000
  /-- Whether replies come in the order of the requests. -/
  ordered : Bool := true
  /-- How many unused bytes a connection may hold and still read on. -/
  maxBuffer : Nat := 65536
  deriving DecidableEq, Repr

namespace Settings

/-- The address to listen at. -/
def address (s : Settings) : String := s.host ++ ":" ++ toString s.port

/-- How connections are run. -/
def options (s : Settings) : Connection.Options :=
  { ordered := s.ordered, maxBuffer := s.maxBuffer }

/-- A server with these settings that has some routes and the store alone behind them. -/
def server (s : Settings) (routes : Routes) : Server :=
  .start { routes, limit := s.limit } s.options .fresh

end Settings

end RespGateway
