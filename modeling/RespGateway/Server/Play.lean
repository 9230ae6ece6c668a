import RespGateway.Server

/-!
# Playing clients

A play is a list of things that clients do, one after another. After each of them the
server works until nothing is left to do, and a day passes before the next. What a
client sends reaches the server in pieces of 1024 bytes, each read at one go, and a day
passes after each piece. What is seen of the server meanwhile is the report of the
step.

Clients can only be played where they can reach the server.
-/

namespace RespGateway.Server

/-- Something that a client does. Clients are numbered from zero as they connect. -/
inductive Action where
  | connect
  /-- The client sends data and, where the flag is set, no more after it. -/
  | send (client : Nat) (data : Bytes) (last : Bool)
  /-- The client sends no more. -/
  | endInput (client : Nat)
  /-- The client breaks the connection off. -/
  | reset (client : Nat)
  deriving DecidableEq, Repr

/-- What is seen of one action. -/
structure Report where
  client : Nat
  /-- What the client received. -/
  out : Bytes
  /-- Whether the server has closed the client's connection. -/
  closed : Bool
  /-- What an observer heard. -/
  events : List Event
  tally : Tally
  /-- How many calls have left the gateway so far. -/
  calls : Nat
  store : Store

/-- Why a play comes to a halt. -/
inductive Halt where
  /-- A client cannot reach the server. -/
  | unreachable
  /-- There is no client of this number. -/
  | noClient (client : Nat)
  deriving DecidableEq, Repr

/-- How many bytes reach the server at one go. -/
def pieceSize : Nat := 1024

/-- How many milliseconds pass after each piece. -/
def day : Nat := 86400000

/-- Data cut into at most `fuel` pieces. -/
def piecesWithin : Nat → Bytes → List Bytes
  | 0, _ => []
  | fuel + 1, s =>
    if s.isEmpty then [] else s.take pieceSize :: piecesWithin fuel (s.drop pieceSize)

/-- Data cut into pieces. -/
def pieces (s : Bytes) : List Bytes := piecesWithin s.length s

/-- Whether the server has closed the connection of a client. -/
def isClosed (s : Server) (client : Nat) : Bool := s.connections[client]?.any (·.isClosed)

/-- Whether a client can do nothing any more. -/
def isGone (s : Server) (client : Nat) : Bool :=
  s.connections[client]?.all fun c => c.isClosed || c.isBroken

/-- The arrivals of a send, piece by piece; an end of input comes together with the last. -/
def arrivals (data : Bytes) (last : Bool) : List (List Arrival) :=
  let ends := if last then [Arrival.endOfInput] else []
  match (pieces data).reverse with
  | [] => [ends]
  | piece :: earlier => (earlier.reverse.map fun p => [.bytes p]) ++ [.bytes piece :: ends]

/-- Lets arrivals reach the server one after another, a day after each, until the client is gone. -/
def receiveAll (client : Nat) : List (List Arrival) → Server → Server
  | [], s => s
  | group :: groups, s =>
    let s := (group.foldl (fun s a => s.receive client a) s).elapse day
    if s.isGone client then s else receiveAll client groups s

/-- What a client has received. -/
def received (s : Server) (client : Nat) : Bytes :=
  (s.connections[client]?.map (·.writer.sent)).getD []

/-- What is seen of a server that was `before` and is `now`. -/
def report (client : Nat) (before now : Server) : Report where
  client
  out := (now.received client).drop (before.received client).length
  closed := now.isClosed client
  events := now.events.drop before.events.length
  tally := now.tally
  calls := now.work.calls.countP Call.isExternal
  store := now.work.store

/-- Lets arrivals of a client reach the server, unless the client is gone. -/
def act (client : Nat) (groups : List (List Arrival)) (s : Server) :
    Except Halt (Option Report × Server) :=
  if s.connections.length ≤ client then .error (.noClient client)
  else if s.isGone client then .ok (none, s)
  else
    let now := receiveAll client groups s
    .ok (some (report client s now), now)

/-- One action; there is no report of a client that is gone. -/
def playAction (reachable : Bool) (s : Server) : Action → Except Halt (Option Report × Server)
  | .connect =>
    if reachable then
      let client := s.connections.length
      let now := s.accept.elapse day
      .ok (some (report client s now), now)
    else .error .unreachable
  | .send client data last => s.act client (arrivals data last)
  | .endInput client => s.act client [[.endOfInput]]
  | .reset client => s.act client [[.reset]]

/-- A list of actions, one after another. -/
def play (reachable : Bool) : Server → List Action → Except Halt (List (Option Report))
  | _, [] => .ok []
  | s, action :: actions =>
    match s.playAction reachable action with
    | .error halt => .error halt
    | .ok (report, s) => (play reachable s actions).map (report :: ·)

end RespGateway.Server
