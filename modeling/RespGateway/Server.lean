import RespGateway.Connection
import RespGateway.Tally

/-!
# The server

A gateway with its connections. Whatever happens in it is a `Move`: a reader goes a
step on, a command ends, a writer goes a step on, the last holder of an outbox lets go
of it, the end of a connection is made known. `perform?` carries out a move where it is
possible; at any time several may be, of one connection or of many, and any of them
may come first. From outside come new connections (`accept`), what clients send
(`receive`), and writes to clients that fail (`loseWriter?`).

`next?` picks one possible move: what can be done now comes before what has to be
waited for, and of the commands that have to be waited for the one that ends first.
`elapse` lets a time pass in this way.
-/

namespace RespGateway

/-- What an observer of the server hears. -/
inductive Server.Event where
  | connected (session : UInt64)
  /-- A connection has ended, and with which trouble if any. -/
  | disconnected (session : UInt64) (trouble : Option Trouble)
  deriving DecidableEq, Repr

/-- A gateway with its connections. -/
structure Server where
  gateway : Gateway
  options : Connection.Options := {}
  work : Gateway.State
  tally : Tally := {}
  /-- The time in milliseconds. -/
  clock : Nat := 0
  /-- The connections in the order in which they were made, those that have ended among them. -/
  connections : List Connection := []
  events : List Server.Event := []

namespace Server

/-- A server without connections. -/
def start (gateway : Gateway) (options : Connection.Options) (store : Store) : Server :=
  { gateway, options, work := { store } }

/-- Puts a connection in the place of an older state of it. -/
def withConnection (s : Server) (i : Nat) (c : Connection) : Server :=
  { s with connections := s.connections.set i c }

/-! ## From outside -/

/-- A client connects. Sessions are numbered from one. -/
def accept (s : Server) : Server :=
  let session := UInt64.ofNat (s.connections.length + 1)
  { s with
    connections := s.connections ++ [{ session }]
    tally := s.tally.opened
    events := s.events ++ [.connected session] }

/-- Something reaches the server from a client. -/
def receive (s : Server) (i : Nat) (a : Arrival) : Server :=
  match s.connections[i]? with
  | some c => s.withConnection i { c with inbox := c.inbox ++ [a] }
  | none => s

/-! ## The reader -/

/-- Takes on a command of a connection. -/
def takeOn (s : Server) (i : Nat) (c : Connection) (x : Exchange) : Server :=
  let (flight, work) := s.work.launch s.gateway s.clock x
  let isLast := x.command == .quit
  let reader :=
    if s.options.ordered || isLast then Reader.awaiting flight.ticket isLast else .reading
  { s.withConnection i { c with flights := c.flights ++ [flight], reader } with
    work
    tally := s.tally.commandProcessed }

/-- Handles the arguments of a request. -/
def handle (s : Server) (i : Nat) (c : Connection) (args : List Bytes) : Server :=
  match Exchange.decode c.session args with
  | .error refusal =>
    { s.withConnection i (c.offer (.rejection refusal.reply)) with
      tally := s.tally.commandRejected }
  | .ok x =>
    if x.command = .quit then s.withConnection i { c with reader := .draining x }
    else s.takeOn i c x

/-- Reads what has arrived first, if anything has. -/
def readArrival? (s : Server) (i : Nat) (c : Connection) : Option Server :=
  match c.inbox with
  | [] => none
  | .bytes piece :: inbox =>
    some { s.withConnection i { c with inbox, buffer := c.buffer ++ piece } with
      tally := s.tally.bytesRead piece.length }
  | .endOfInput :: inbox =>
    let why := if c.buffer.isEmpty then Departure.left else .troubled .cutShort
    some (s.withConnection i ({ c with inbox }.finish why))
  | .reset :: inbox => some (s.withConnection i ({ c with inbox }.finish (.troubled .reset)))

/-- The reader of a connection goes a step on. Whether the buffer is too full is asked when more
has to be read, and only then. -/
def stepReader? (s : Server) (i : Nat) (c : Connection) : Option Server :=
  match c.reader with
  | .reading =>
    match Request.decode c.buffer with
    | .complete args consumed =>
      some (s.handle i { c with buffer := c.buffer.drop consumed } args)
    | .malformed fault => some (s.withConnection i (c.finish (.troubled (.malformed fault))))
    | .incomplete =>
      if s.options.maxBuffer ≤ c.buffer.length then
        some (s.withConnection i (c.finish (.troubled .oversized)))
      else s.readArrival? i c
  | .draining farewell => if c.flights.isEmpty then some (s.takeOn i c farewell) else none
  | .awaiting _ _ => none
  | .finished _ => none

/-! ## Ends -/

/-- A command of a connection ends. -/
def land? (s : Server) (i : Nat) (c : Connection) (ticket : Nat) : Option Server :=
  match (c.flights.find? (·.ticket == ticket)).bind (·.outcome) with
  | none => none
  | some (moment, landing) =>
    let (outbox, work) := s.work.deliver landing c.writer.outbox
    some { s.withConnection i
        { c with
          flights := c.flights.filter (·.ticket != ticket)
          reader := c.reader.afterLanding ticket
          writer := { c.writer with outbox } } with
      work
      clock := max s.clock moment.time }

/-- The writer of a connection goes a step on. -/
def stepWriter? (s : Server) (i : Nat) (c : Connection) : Option Server :=
  c.writer.step?.map fun writer =>
    { s.withConnection i { c with writer } with
      tally := s.tally.bytesWritten (writer.written - c.writer.written) }

/-- A write of a connection's writer fails when that many bytes of it have gone out. -/
def loseWriter? (s : Server) (i : Nat) (c : Connection) (count : Nat) : Option Server :=
  (c.writer.fail? count).map fun writer => s.withConnection i { c with writer }

/-- Nobody holds the outbox any more: neither the reader nor a command under way. -/
def release? (s : Server) (i : Nat) (c : Connection) : Option Server :=
  if c.isFinished ∧ c.flights.isEmpty ∧ c.writer.hasSenders then
    some (s.withConnection i { c with writer := c.writer.release })
  else none

/-- The end of a connection is made known, once reader and writer have ended, with the trouble of
the reader or else that of the writer. -/
def depart? (s : Server) (i : Nat) (c : Connection) : Option Server :=
  match c.reader with
  | .finished why =>
    if c.writer.isStopped ∧ ¬c.departed then
      some { s.withConnection i { c with departed := true } with
        tally := s.tally.closed
        events := s.events ++ [.disconnected c.session (why.withLoss c.writer.isLost).trouble?] }
    else none
  | _ => none

/-! ## Moves -/

/-- Something that can happen in a server by itself. -/
inductive Move where
  /-- The reader of a connection goes a step on. -/
  | reader (i : Nat)
  /-- A command of a connection ends. -/
  | land (i ticket : Nat)
  /-- The writer of a connection goes a step on. -/
  | writer (i : Nat)
  /-- The last holder of a connection's outbox lets go of it. -/
  | release (i : Nat)
  /-- The end of a connection is made known. -/
  | depart (i : Nat)
  deriving DecidableEq, Repr

/-- Carries out a move, if it is possible. -/
def perform? (s : Server) : Move → Option Server
  | .reader i => s.connections[i]?.bind (s.stepReader? i)
  | .land i ticket => s.connections[i]?.bind (s.land? i · ticket)
  | .writer i => s.connections[i]?.bind (s.stepWriter? i)
  | .release i => s.connections[i]?.bind (s.release? i)
  | .depart i => s.connections[i]?.bind (s.depart? i)

/-! ## Letting time pass -/

/-- The moves of one connection that need no waiting. -/
def promptMoves (i : Nat) : List Move := [.writer i, .reader i, .release i, .depart i]

/-- The commands under way that end by a time, each with its moment, connection and ticket. -/
def dueBy (s : Server) (horizon : Nat) : List (Moment × Nat × Nat) :=
  s.connections.zipIdx.flatMap fun (c, i) =>
    c.flights.filterMap fun f =>
      f.outcome.bind fun (m, _) => if m.time ≤ horizon then some (m, i, f.ticket) else none

/-- The command that ends first of two: at the earlier moment, and of two at one moment the one that
was taken on first. -/
def earlier (a b : Moment × Nat × Nat) : Moment × Nat × Nat :=
  if a.1.notAfter b.1 && (!b.1.notAfter a.1 || decide (a.2.2 ≤ b.2.2)) then a else b

/-- The end that comes first of those that come by a time. -/
def nextLanding? (s : Server) (horizon : Nat) : Option Move :=
  match s.dueBy horizon with
  | [] => none
  | due :: dues =>
    let (_, i, ticket) := dues.foldl earlier due
    some (.land i ticket)

/-- The state after the next move, if any is possible by a time. -/
def next? (s : Server) (horizon : Nat) : Option Server :=
  let prompt := (List.range s.connections.length).flatMap promptMoves
  (prompt ++ (s.nextLanding? horizon).toList).findSome? s.perform?

/-- At most `fuel` moves, none of them after a time. -/
def run (horizon : Nat) : Nat → Server → Server
  | 0, s => s
  | fuel + 1, s =>
    match s.next? horizon with
    | none => s
    | some s => run horizon fuel s

/-- How much a reader has before it. -/
def readerEffort : Reader → Nat
  | .reading => 3
  | .awaiting _ _ => 3
  | .draining _ => 7
  | .finished _ => 0

/-- How much a writer has before it. -/
def writerEffort (w : Writer) : Nat :=
  let phase :=
    match w.phase with
    | .waiting => 2
    | .wrote _ => 3
    | .closing => 1
    | .stopped => 0
  2 * w.outbox.waiting.length + phase + w.hasSenders.toNat

/-- How much an arrival brings. -/
def arrivalEffort : Arrival → Nat
  | .bytes piece => 2 * piece.length + 1
  | _ => 1

/-- The sum of what the entries of a list count for. -/
def total {α : Type} (f : α → Nat) : List α → Nat
  | [] => 0
  | a :: l => f a + total f l

/-- A bound on the moves that a connection has before it. -/
def connectionEffort (c : Connection) : Nat :=
  total arrivalEffort c.inbox + 2 * c.buffer.length + readerEffort c.reader +
    3 * c.flights.length + writerEffort c.writer + (!c.departed).toNat

/-- A bound on the moves that a server has before it. -/
def effort (s : Server) : Nat := total connectionEffort s.connections

/-- Lets a time pass. -/
def elapse (period : Nat) (s : Server) : Server :=
  let horizon := s.clock + period
  { s.run horizon s.effort with clock := horizon }

end Server

end RespGateway
