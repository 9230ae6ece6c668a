import RespGateway.Cache
import RespGateway.Store.Table

/-!
# The store

Keys and values in memory. The keys are divided among 64 shards, each a table of its
own; which shard a key belongs to is a function of the key, fixed when the store is
made. Beside the shards the store counts its keys and the operations on it, in words
of 64 bits. `Store.answer` is the store as a cache.
-/

namespace RespGateway

/-- How many shards a store has. -/
def Store.shardCount : Nat := 64

/-- A store of keys and values. -/
structure Store where
  /-- The shard that a key belongs to. -/
  place : Bytes → Fin Store.shardCount
  shards : Vector Store.Table Store.shardCount
  /-- How many keys are bound. -/
  keys : UInt64
  /-- How often a key was looked up. -/
  gets : UInt64
  /-- How often a key was bound. -/
  sets : UInt64
  /-- How often a key was to be unbound, bound or not. -/
  dels : UInt64

namespace Store

/-- A spread of the keys over the shards. -/
def spread (key : Bytes) : Fin shardCount :=
  ⟨key.foldl (fun n b => (n * 31 + b.toNat) % 65521) 7 % shardCount, Nat.mod_lt _ (by decide)⟩

/-- A store without keys. -/
def empty (place : Bytes → Fin shardCount) : Store :=
  { place, shards := Vector.replicate shardCount Table.empty, keys := 0, gets := 0, sets := 0,
    dels := 0 }

/-- A store without keys and with the usual spread. -/
def fresh : Store := empty spread

/-! ## The shard of a key -/

/-- The table that a key belongs to. -/
def shard (s : Store) (key : Bytes) : Table := s.shards[s.place key]

/-- Puts a table in place of the one that a key belongs to. -/
def withShard (s : Store) (key : Bytes) (t : Table) : Store :=
  { s with shards := s.shards.set (s.place key) t }

/-- The value of a key. -/
def value? (s : Store) (key : Bytes) : Option Bytes := (s.shard key).get? key

/-! ## Operations -/

/-- Looks a key up. -/
def get (s : Store) (key : Bytes) : Option Bytes × Store :=
  (s.value? key, { s with gets := s.gets + 1 })

/-- Binds a key and tells what it was bound to before. -/
def set (s : Store) (key value : Bytes) : Option Bytes × Store :=
  let previous := s.value? key
  let bound := s.withShard key ((s.shard key).insert key value)
  (previous,
    { bound with
      sets := s.sets + 1
      keys := if previous.isNone then s.keys + 1 else s.keys })

/-- Unbinds a key and tells whether it was bound. -/
def delete (s : Store) (key : Bytes) : Bool × Store :=
  let present := (s.value? key).isSome
  let unbound := s.withShard key ((s.shard key).erase key)
  (present,
    { unbound with
      dels := s.dels + 1
      keys := if present then s.keys - 1 else s.keys })

/-- Unbinds keys one after another and tells how many were bound when their turn came. -/
def deleteMany (s : Store) : List Bytes → Nat × Store
  | [] => (0, s)
  | key :: keys =>
    let (present, s) := s.delete key
    let (count, s) := s.deleteMany keys
    (present.toNat + count, s)

/-- Whether a key is bound. -/
def contains (s : Store) (key : Bytes) : Bool := (s.value? key).isSome

/-- How many of the keys are bound, repeated keys counted each time. -/
def containsMany (s : Store) (keys : List Bytes) : Nat := keys.countP s.contains

/-- How many keys are bound. -/
def size (s : Store) : UInt64 := s.keys

/-- Whether no key is bound. -/
def isEmpty (s : Store) : Bool := s.size == 0

/-- The store in one line. -/
def summary (s : Store) : String :=
  "StorageEngine \x7b shards: " ++ toString s.shards.size ++ ", key_count: " ++ toString s.keys ++
    " \x7d"

/-! ## Answering queries -/

/-- A count as the payload of an answer: a word, read as signed. -/
def countPayload (n : UInt64) : Option Cache.Payload := some (.integer n.toInt64)

/-- Carries out a query, and nothing in between. A query that lacks what its operation needs fails
and changes nothing. -/
def answer (s : Store) (q : Cache.Query) : Cache.Answer × Store :=
  match q.operation with
  | .get =>
    match q.key with
    | none => (.failed "missing key", s)
    | some key =>
      let (value, s) := s.get key
      (.success (value.map .bytes), s)
  | .put =>
    match q.key, q.value with
    | some key, some value => (.success none, (s.set key value).2)
    | _, _ => (.failed "missing key or value", s)
  | .getAndPut =>
    match q.key, q.value with
    | some key, some value =>
      let (previous, s) := s.set key value
      (.success (previous.map .bytes), s)
    | _, _ => (.failed "missing key or value", s)
  | .remove =>
    if q.keys.isEmpty then (.failed "missing keys", s)
    else
      let (count, s) := s.deleteMany q.keys
      (.success (countPayload (UInt64.ofNat count)), s)
  | .containsKey =>
    if q.keys.isEmpty then (.failed "missing keys", s)
    else (.success (countPayload (UInt64.ofNat (s.containsMany q.keys))), s)
  | .size => (.success (countPayload s.size), s)

end Store

end RespGateway
