import RespGateway.Gateway
import RespGateway.Outbox

/-!
# The gateway at work

What the gateway works on: its store, the calls it has made and the ticket of the next
command. A command that has been taken on and has not ended is a `Flight`. Commands are
seen through one by one (`process`, `serve`), or taken on all at once and ended in the
order of their moments (`serveAll`).
-/

namespace RespGateway

/-- A command that has been taken on and has not ended. -/
structure Flight where
  ticket : Nat
  /-- When and how it will end, if it will. -/
  outcome : Option (Moment × Landing)
  deriving DecidableEq, Repr

namespace Gateway

/-- What the gateway works on. -/
structure State where
  store : Store
  /-- The calls made so far, in order. -/
  calls : List Call := []
  /-- The ticket of the next command. -/
  tickets : Nat := 0

namespace State

/-- The calls that have left the gateway since an older state of it. -/
def callsSince (before now : State) : List Call :=
  (now.calls.drop before.calls.length).filter Call.isExternal

/-- Takes on a command at a time. -/
def launch (g : Gateway) (now : Nat) (x : Exchange) (st : State) : Flight × State :=
  let launched := g.launch st.tickets x
  (⟨st.tickets, launched.outcome.map fun (m, landing) => (m.after now, landing)⟩,
    { st with calls := st.calls ++ launched.call.toList, tickets := st.tickets + 1 })

/-- Ends a command. -/
def land (landing : Landing) (st : State) : Except Exchange.AnsweredTwice Exchange × State :=
  let (reply, store) := landing.land st.store
  (reply, { st with store })

/-- Takes on a command and sees it through; `none` if it never ends. -/
def process (g : Gateway) (x : Exchange) (st : State) :
    Option (Except Exchange.AnsweredTwice Exchange) × State :=
  let (flight, st) := st.launch g 0 x
  match flight.outcome with
  | none => (none, st)
  | some (_, landing) =>
    let (reply, st) := st.land landing
    (some reply, st)

/-! ## Replies on a session -/

/-- Ends a command and sends its reply, if there is one and the session is open. -/
def deliver (landing : Landing) (st : State) (o : Outbox) : Outbox × State :=
  match st.land landing with
  | (.ok x, st) => (o.offer (.reply x), st)
  | (.error _, st) => (o, st)

/-- Takes on a command, sees it through and sends its reply; the flag tells whether it ended. -/
def serve (g : Gateway) (x : Exchange) (st : State) (o : Outbox) : Bool × Outbox × State :=
  let (flight, st) := st.launch g 0 x
  match flight.outcome with
  | none => (false, o, st)
  | some (_, landing) => (true, st.deliver landing o)

/-- Takes on commands one right after another. -/
def launchAll (g : Gateway) (now : Nat) : List Exchange → State → List Flight × State
  | [], st => ([], st)
  | x :: xs, st =>
    let (flight, st) := st.launch g now x
    let (flights, st) := st.launchAll g now xs
    (flight :: flights, st)

/-- Ends commands one after another. -/
def deliverAll (landings : List Landing) (st : State) (o : Outbox) : Outbox × State :=
  landings.foldl (fun (o, st) landing => st.deliver landing o) (o, st)

/-- Takes on commands all at once and sends each reply when it is there. -/
def serveAll (g : Gateway) (xs : List Exchange) (st : State) (o : Outbox) : Outbox × State :=
  let (flights, st) := st.launchAll g 0 xs
  let ends := flights.filterMap (·.outcome)
  let inOrder := ends.mergeSort fun a b => a.1.notAfter b.1
  st.deliverAll (inOrder.map (·.2)) o

end State

end Gateway

end RespGateway
