import RespGateway.Bytes

/-!
# Tables

A finite map from keys to values, kept as a list of bindings with every key once.
-/

namespace RespGateway.Store

/-- A finite map from keys to values. -/
structure Table where
  bindings : List (Bytes × Bytes)
  /-- No key is bound twice. -/
  nodup_keys : (bindings.map Prod.fst).Nodup
  deriving DecidableEq, Repr

namespace Table

/-- The table that binds no key. -/
def empty : Table := ⟨[], by simp⟩

/-- The value of a key. -/
def get? (t : Table) (key : Bytes) : Option Bytes := t.bindings.lookup key

/-- How many keys are bound. -/
def size (t : Table) : Nat := t.bindings.length

/-- The bindings of all keys but one. -/
def others (t : Table) (key : Bytes) : List (Bytes × Bytes) := t.bindings.filter (·.1 != key)

theorem nodup_keys_others (t : Table) (key : Bytes) : ((t.others key).map Prod.fst).Nodup :=
  (List.filter_sublist.map Prod.fst).nodup t.nodup_keys

theorem not_mem_keys_others (t : Table) (key : Bytes) : key ∉ (t.others key).map Prod.fst := by
  simp [others]

/-- Unbinds a key. -/
def erase (t : Table) (key : Bytes) : Table := ⟨t.others key, t.nodup_keys_others key⟩

/-- Binds a key to a value. -/
def insert (t : Table) (key value : Bytes) : Table :=
  ⟨(key, value) :: t.others key,
    List.nodup_cons.2 ⟨t.not_mem_keys_others key, t.nodup_keys_others key⟩⟩

end Table

end RespGateway.Store
