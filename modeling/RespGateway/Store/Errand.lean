import RespGateway.Store

/-!
# Errands

What it takes a store to answer a query. The keys of the query are gone through one after
another, and even the part that concerns one key is not done at one go: first the operation
is counted, then the table of the key is read or changed, and then the count of the keys
follows. Each of these accesses is one of its own. The table of a key is locked for its
access and for no longer, so where several queries are answered at once, the accesses for
one come in between those for another.

An `Errand` is the work for one query, as far as it has come. `Store.answer` is what an
errand comes to that nothing comes in between.
-/

namespace RespGateway

namespace Store

/-! ## Parts -/

/-- What is asked of a store with one key in view, or with none. -/
inductive Part where
  | get (key : Bytes)
  | set (key value : Bytes)
  | delete (key : Bytes)
  | contains (key : Bytes)
  | size
  deriving DecidableEq, Repr

/-- What is found. -/
inductive Finding where
  | value (found : Option Bytes)
  | flag (holds : Bool)
  | count (n : UInt64)
  deriving DecidableEq, Repr

namespace Part

/-- Counts the operation, if it is of a kind that is counted. -/
def count (p : Part) (s : Store) : Store :=
  match p with
  | .get _ => { s with gets := s.gets + 1 }
  | .set _ _ => { s with sets := s.sets + 1 }
  | .delete _ => { s with dels := s.dels + 1 }
  | .contains _ => s
  | .size => s

/-- What is done while the table of the key is locked. For a size nothing is locked, and the count
of the keys is read as it stands. -/
def touch (p : Part) (s : Store) : Finding × Store :=
  match p with
  | .get key => (.value (s.value? key), s)
  | .set key value => (.value (s.value? key), s.withShard key ((s.shard key).insert key value))
  | .delete key => (.flag (s.value? key).isSome, s.withShard key ((s.shard key).erase key))
  | .contains key => (.flag (s.contains key), s)
  | .size => (.count s.size, s)

/-- Moves the count of the keys, if what was found says that a key has come or gone. -/
def settle (p : Part) (found : Finding) (s : Store) : Store :=
  match p, found with
  | .set _ _, .value none => { s with keys := s.keys + 1 }
  | .delete _, .flag true => { s with keys := s.keys - 1 }
  | _, _ => s

/-- All accesses of a part, and nothing in between. -/
def perform (p : Part) (s : Store) : Finding × Store :=
  let (found, touched) := p.touch (p.count s)
  (found, p.settle found touched)

end Part

/-- Parts one after another, and nothing in between. -/
def carryOut (s : Store) : List Part → List Finding × Store
  | [] => ([], s)
  | p :: ps =>
    let (found, s) := p.perform s
    let (findings, s) := s.carryOut ps
    (found :: findings, s)

end Store

/-! ## Queries -/

namespace Cache.Query

/-- The parts of a query. A query that lacks what its operation needs has none. -/
def parts (q : Query) : List Store.Part :=
  match q.operation with
  | .get => q.key.toList.map .get
  | .put | .getAndPut =>
    match q.key, q.value with
    | some key, some value => [.set key value]
    | _, _ => []
  | .remove => q.keys.map .delete
  | .containsKey => q.keys.map .contains
  | .size => [.size]

/-- The answer to a query, by what its parts have found. -/
def conclude (q : Query) (findings : List Store.Finding) : Answer :=
  match q.operation, findings with
  | .get, .value found :: _ => .success (found.map .bytes)
  | .get, _ => .failed "missing key"
  | .put, _ :: _ => .success none
  | .put, [] => .failed "missing key or value"
  | .getAndPut, .value previous :: _ => .success (previous.map .bytes)
  | .getAndPut, _ => .failed "missing key or value"
  | .remove, [] | .containsKey, [] => .failed "missing keys"
  | .remove, found :: more | .containsKey, found :: more =>
    .success (Store.countPayload (UInt64.ofNat ((found :: more).count (.flag true))))
  | .size, .count n :: _ => .success (Store.countPayload n)
  | .size, _ => .success none

end Cache.Query

/-! ## Errands -/

namespace Store

/-- How far a part has come. -/
inductive Stage where
  | fresh
  | counted
  | touched (found : Finding)
  deriving DecidableEq, Repr

/-- The work for a query, as far as it has come. -/
structure Errand where
  /-- The parts that are not done. The first of them is under way. -/
  ahead : List Part
  stage : Stage := .fresh
  /-- What was found by those that are done. -/
  findings : List Finding := []
  deriving DecidableEq, Repr

/-- The next access of an errand. -/
def Errand.step? (e : Errand) (s : Store) : Option (Errand × Store) :=
  match e.ahead, e.stage with
  | [], _ => none
  | p :: _, .fresh => some ({ e with stage := .counted }, p.count s)
  | p :: _, .counted =>
    let (found, s) := p.touch s
    some ({ e with stage := .touched found }, s)
  | p :: ps, .touched found => some (⟨ps, .fresh, e.findings ++ [found]⟩, p.settle found s)

end Store

end RespGateway
