import RespGateway.Bytes

/-!
# The cache

The language in which the gateway speaks to a cache: a query names an operation and
carries whatever keys and values it has; an answer is a success or a failure with a
payload and a reason. Nothing here says how a query is answered.
-/

namespace RespGateway.Cache

/-- What a cache can be asked to do. -/
inductive Operation where
  | get
  | put
  | getAndPut
  | remove
  | containsKey
  | size
  deriving DecidableEq, Repr

/-- The name of an operation. -/
def Operation.name : Operation → String
  | .get => "cache_get"
  | .put => "cache_put"
  | .getAndPut => "cache_get_and_put"
  | .remove => "cache_remove"
  | .containsKey => "cache_contains_key"
  | .size => "cache_size"

/-- Every operation once. -/
def Operation.all : List Operation := [.get, .put, .getAndPut, .remove, .containsKey, .size]

/-- A question to the cache. -/
structure Query where
  operation : Operation
  /-- The session of the client that asks. -/
  client : UInt64
  key : Option Bytes := none
  value : Option Bytes := none
  keys : List Bytes := []
  deriving DecidableEq, Repr

/-- The key that a query is about: its key, or else the first of its keys. -/
def Query.subject? (q : Query) : Option Bytes := q.key <|> q.keys.head?

/-- What an answer carries. -/
inductive Payload where
  | bytes (data : Bytes)
  | integer (value : Int64)
  deriving DecidableEq, Repr

/-- Whether a query was carried out. -/
inductive Status where
  | success
  | failed
  deriving DecidableEq, Repr

/-- What the cache says to a query. -/
structure Answer where
  status : Status
  payload : Option Payload
  /-- Why the query failed; clients are not told. -/
  error : Option String
  deriving DecidableEq, Repr

/-- The answer to a query that was carried out. -/
def Answer.success (payload : Option Payload) : Answer := ⟨.success, payload, none⟩

/-- The answer to a query that was not carried out. -/
def Answer.failed (reason : String) : Answer := ⟨.failed, none, some reason⟩

end RespGateway.Cache
