import RespGateway.Proofs.OneTable
import RespGateway.Proofs.Transcript

/-!
# A reference server

What clients can expect of a gateway with no callees but its own, and nothing of what the
gateway has for itself: one table, and no shards, queues or commands under way. What a
client sends is heard at once. Its requests are served one after another on the table,
and then it is told why it is not heard any more, if it is not.
-/

namespace RespGateway

namespace Reference

/-! ## Serving a request -/

/-- The reply with a count. -/
def count (n : Nat) : Reply := .integer (Int64.ofNat n)

/-- The reply with what a key is bound to. -/
def bound : Option Bytes → Reply
  | some value => .bulk value
  | none => .nil

/-- The reply to a command with as many arguments as it takes, and the table after it. -/
def answer (t : Store.Table) : Command → List Bytes → Reply × Store.Table
  | .ping, [] => (.pong, t)
  | .ping, text :: _ => (.bulk text, t)
  | .echo, text :: _ => (.bulk text, t)
  | .quit, _ => (.ok, t)
  | .get, key :: _ => (bound (t.get? key), t)
  | .set, key :: value :: _ => (.ok, t.insert key value)
  | .getSet, key :: value :: _ => (bound (t.get? key), t.insert key value)
  | .del, keys => (count (keys.dedup.countP t.binds), t.eraseAll keys)
  | .exist, keys => (count (keys.countP t.binds), t)
  | .dbSize, _ => (count t.size, t)
  | _, _ => (.error "ERR Unsupported operation!", t)

/-- The reply to a request, and the table after it. -/
def serve (t : Store.Table) : List Bytes → Reply × Store.Table
  | [] => (.error "ERR unknown command ''", t)
  | name :: args =>
    match Command.ofName? name with
    | none => (.error ("ERR unknown command '" ++ Exchange.echoed name ++ "'"), t)
    | some command =>
      if command.arity.accepts args.length then answer t command args
      else (.error ("ERR wrong number of arguments for '" ++ command.name ++ "' command"), t)

/-- The replies to requests, and the table after them. -/
def serveAll (t : Store.Table) : List (List Bytes) → List Reply × Store.Table
  | [] => ([], t)
  | arguments :: later =>
    let (reply, t) := serve t arguments
    let (replies, t) := serveAll t later
    (reply :: replies, t)

/-- A client of the reference server. -/
structure Client where
  /-- What has been heard of it and has not made a request yet. -/
  unread : Bytes := []
  /-- What it has received. -/
  received : Bytes := []
  /-- Whether more is heard of it. -/
  isOpen : Bool := true
  deriving DecidableEq, Repr

end Reference

/-- The reference server. -/
structure Reference where
  maxBuffer : Nat
  table : Store.Table := .empty
  /-- The clients in the order in which they connected. -/
  clients : List Reference.Client := []
  deriving DecidableEq, Repr

namespace Reference

/-! ## Hearing clients -/

/-- A client that is open is served what it has said. -/
def heard (r : Reference) (i : Nat) (client : Client) (said : Transcript) : Reference :=
  let served := serveAll r.table said.requests
  let client : Client :=
    { unread := said.rest
      received := client.received ++ (served.1 ++ said.farewell).flatMap Reply.encode
      isOpen := said.ending.isNone }
  { r with table := served.2, clients := r.clients.set i client }

/-- Something arrives from a client. Nothing is heard of one that is not open. -/
def hear (r : Reference) (i : Nat) (arrivals : List Arrival) : Reference :=
  match r.clients[i]? with
  | none => r
  | some client =>
    if client.isOpen then
      r.heard i client (.ofArrivals r.maxBuffer client.unread arrivals)
    else r

theorem hear_open {r : Reference} {i : Nat} {client : Client} (h : r.clients[i]? = some client)
    (hopen : client.isOpen = true) (arrivals : List Arrival) :
    r.hear i arrivals = r.heard i client (.ofArrivals r.maxBuffer client.unread arrivals) := by
  simp only [hear, h, hopen, if_true]

theorem hear_closed {r : Reference} {i : Nat} {client : Client} (h : r.clients[i]? = some client)
    (hclosed : client.isOpen = false) (arrivals : List Arrival) : r.hear i arrivals = r := by
  simp [hear, h, hclosed]

theorem length_hear (r : Reference) (i : Nat) (arrivals : List Arrival) :
    (r.hear i arrivals).clients.length = r.clients.length := by
  unfold hear
  split
  · rfl
  · split
    · exact List.length_set
    · rfl

/-- A client connects. It is refused at once where there is no space for any request. -/
def connect (r : Reference) : Reference :=
  let joined : Reference := { r with clients := r.clients ++ [{}] }
  joined.hear r.clients.length []

end Reference

end RespGateway
