import RespGateway.Cache
import RespGateway.Exchange

/-!
# Exchanges as queries

The commands that the cache serves: which operation each becomes, which arguments the
query takes, and what shape the reply has.

| command  | operation     | query       | reply                |
|----------|---------------|-------------|----------------------|
| `GET`    | `get`         | key         | bulk string or nil   |
| `SET`    | `put`         | key, value  | status               |
| `GETSET` | `getAndPut`   | key, value  | bulk string or nil   |
| `DEL`    | `remove`      | keys        | integer              |
| `EXISTS` | `containsKey` | keys        | integer              |
| `DBSIZE` | `size`        |             | integer              |
-/

namespace RespGateway

/-! ## From exchanges to queries -/

/-- The operation that a command becomes. -/
def Command.operation? : Command → Option Cache.Operation
  | .get => some .get
  | .set => some .put
  | .getSet => some .getAndPut
  | .del => some .remove
  | .exist => some .containsKey
  | .dbSize => some .size
  | _ => none

/-- The query for an exchange whose command becomes `operation`. -/
def Cache.Query.of (operation : Cache.Operation) (x : Exchange) : Cache.Query :=
  match operation with
  | .get => { operation, client := x.client, key := x.key? }
  | .put | .getAndPut => { operation, client := x.client, key := x.key?, value := x.args[1]? }
  | .remove | .containsKey => { operation, client := x.client, keys := x.args }
  | .size => { operation, client := x.client }

/-- The query for an exchange, if the cache serves its command. -/
def Exchange.query? (x : Exchange) : Option Cache.Query :=
  x.command.operation?.map fun operation => .of operation x

/-! ## From answers to replies -/

/-- The shape of the reply to a command that the cache serves. -/
inductive Framing where
  /-- The payload as a bulk string, nil without one. -/
  | bulk
  /-- The status `OK`, whatever the payload. -/
  | status
  /-- The payload, which must be an integer. -/
  | integer
  deriving DecidableEq, Repr

/-- The shape of the reply to a command. -/
def Command.framing? : Command → Option Framing
  | .get | .getSet => some .bulk
  | .set => some .status
  | .del | .exist | .dbSize => some .integer
  | _ => none

/-- The reply that tells a client of a success. -/
def Framing.reply : Framing → Option Cache.Payload → Reply
  | .bulk, none => .nil
  | .bulk, some (.bytes data) => .bulk data
  | .bulk, some (.integer n) => .bulk (Text.Decimal.ofInt n.toInt)
  | .status, _ => .ok
  | .integer, some (.integer n) => .integer n
  | .integer, _ => .generic Reply.operationError

/-- The reply that tells a client of an answer. Of a failure it tells nothing but that. -/
def Cache.Answer.reply (answer : Cache.Answer) (command : Command) : Reply :=
  match answer.status, command.framing? with
  | .failed, _ => .generic Reply.operationError
  | .success, none => .generic Reply.unsupportedOperation
  | .success, some framing => framing.reply answer.payload

/-- The bridge between exchanges and the cache, in one line. -/
def Cache.bridgeSummary : String := "CacheBridge \x7b .. \x7d"

end RespGateway
