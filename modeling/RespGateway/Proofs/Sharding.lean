import Mathlib.Algebra.BigOperators.Fin
import RespGateway.Proofs.OneTable

/-!
# The shards of a store

A store keeps its keys in shards, and counts its keys and the operations on it beside
them. Whatever is done with a store, and however the keys are spread over the shards,
what comes back is what one table gives; every key is in the shard that it belongs to
and in no other; and the counters are exact, in words of 64 bits.

`Sharded` says what holds between a store and the table, `Counted` what holds after a
list of operations.
-/

namespace RespGateway.Store

/-! ## Operations one after another -/

/-- Something that is done with a store. -/
inductive Operation where
  | set (key value : Bytes)
  | get (key : Bytes)
  | delete (key : Bytes)
  | deleteMany (keys : List Bytes)
  | contains (key : Bytes)
  | containsMany (keys : List Bytes)
  | size
  | isEmpty
  deriving DecidableEq, Repr

/-- What comes back. -/
inductive Outcome where
  | value (found : Option Bytes)
  | flag (holds : Bool)
  | count (n : Nat)
  | word (n : UInt64)
  deriving DecidableEq, Repr

namespace Operation

/-- How many keys an operation looks up. -/
def lookups : Operation → Nat
  | .get _ => 1
  | _ => 0

/-- How many keys an operation binds. -/
def bindings : Operation → Nat
  | .set _ _ => 1
  | _ => 0

/-- How many keys an operation is to unbind, bound or not. -/
def deletions : Operation → Nat
  | .delete _ => 1
  | .deleteMany keys => keys.length
  | _ => 0

/-- Whether an operation only asks. -/
def asks : Operation → Bool
  | .contains _ | .containsMany _ | .size | .isEmpty => true
  | _ => false

end Operation

/-- What comes of an operation on a store. -/
def perform (s : Store) : Operation → Outcome × Store
  | .set key value =>
    let (previous, s) := s.set key value
    (.value previous, s)
  | .get key =>
    let (found, s) := s.get key
    (.value found, s)
  | .delete key =>
    let (present, s) := s.delete key
    (.flag present, s)
  | .deleteMany keys =>
    let (count, s) := s.deleteMany keys
    (.count count, s)
  | .contains key => (.flag (s.contains key), s)
  | .containsMany keys => (.count (s.containsMany keys), s)
  | .size => (.word s.size, s)
  | .isEmpty => (.flag s.isEmpty, s)

/-- What comes of an operation on a table, whose size is told as a word. -/
def Table.perform (t : Table) : Operation → Outcome × Table
  | .set key value => (.value (t.get? key), t.insert key value)
  | .get key => (.value (t.get? key), t)
  | .delete key => (.flag (t.binds key), t.erase key)
  | .deleteMany keys => (.count (keys.dedup.countP t.binds), t.eraseAll keys)
  | .contains key => (.flag (t.binds key), t)
  | .containsMany keys => (.count (keys.countP t.binds), t)
  | .size => (.word (UInt64.ofNat t.size), t)
  | .isEmpty => (.flag (UInt64.ofNat t.size == 0), t)

/-- What comes of operations one after another. -/
def performAll (s : Store) : List Operation → List Outcome × Store
  | [] => ([], s)
  | op :: ops =>
    let (outcome, s) := s.perform op
    let (outcomes, s) := s.performAll ops
    (outcome :: outcomes, s)

/-- What comes of operations on a table one after another. -/
def Table.performAll (t : Table) : List Operation → List Outcome × Table
  | [] => ([], t)
  | op :: ops =>
    let (outcome, t) := t.perform op
    let (outcomes, t) := t.performAll ops
    (outcome :: outcomes, t)

/-! ## Keys in shards -/

/-- How many keys the shards bind together. -/
def total (s : Store) : Nat := ∑ i : Fin shardCount, s.shards[i].size

/-- Every key is in the shard that it belongs to, if in any. -/
def Placed (s : Store) : Prop :=
  ∀ (i : Fin shardCount) (key : Bytes), s.shards[i].binds key = true → i = s.place key

variable {s : Store} {t : Table}

theorem shards_withShard (s : Store) (key : Bytes) (table : Table) (i : Fin shardCount) :
    (s.withShard key table).shards[i] = if i = s.place key then table else s.shards[i] := by
  unfold withShard
  by_cases hi : i = s.place key
  · simp [hi]
  · have hne : (s.place key).val ≠ i.val := fun heq => hi (Fin.ext heq.symm)
    simp [hi, hne]

theorem Placed.withShard (h : s.Placed) {key : Bytes} {table : Table}
    (htable : ∀ k, table.binds k = true → k = key ∨ (s.shard key).binds k = true) :
    (s.withShard key table).Placed := by
  intro i k hk
  change i = s.place k
  rw [shards_withShard] at hk
  split at hk
  · rename_i hi
    rcases htable k hk with rfl | hbound
    · exact hi
    · exact hi.trans (h (s.place key) k hbound)
  · exact h i k hk

/-- A shard that is put in the place of another changes the total by the difference of the two. -/
theorem total_withShard (s : Store) (key : Bytes) (table : Table) :
    (s.withShard key table).total + (s.shard key).size = s.total + table.size := by
  have hothers : ∑ i ∈ Finset.univ.erase (s.place key), (s.withShard key table).shards[i].size =
      ∑ i ∈ Finset.univ.erase (s.place key), s.shards[i].size := by
    refine Finset.sum_congr rfl fun i hi => ?_
    rw [shards_withShard, if_neg (Finset.ne_of_mem_erase hi)]
  have hown : (s.withShard key table).shards[s.place key] = table := by
    rw [shards_withShard, if_pos rfl]
  unfold total
  rw [← Finset.add_sum_erase _ _ (Finset.mem_univ (s.place key)), hothers, hown,
    ← Finset.add_sum_erase _ (fun i : Fin shardCount => s.shards[i].size)
      (Finset.mem_univ (s.place key)), shard]
  omega

/-! ## A store and its table -/

/-- The shards of a store bind together what one table binds. -/
structure Sharded (s : Store) (t : Table) : Prop where
  holds : s.Holds t
  placed : s.Placed
  total : s.total = t.size

theorem sharded_empty (place : Bytes → Fin shardCount) : (empty place).Sharded .empty where
  holds := holds_empty place
  placed i key h := by simp [empty, Table.binds, Table.get?, Table.empty] at h
  total := by simp [Store.total, empty, Table.size, Table.empty]

namespace Sharded

theorem get (h : s.Sharded t) (key : Bytes) : (s.get key).2.Sharded t :=
  ⟨(h.holds.get key).2, h.placed, h.total⟩

theorem set (h : s.Sharded t) (key value : Bytes) :
    (s.set key value).2.Sharded (t.insert key value) where
  holds := (h.holds.set key value).2
  placed := by
    refine h.placed.withShard fun k hk => ?_
    rw [Table.binds, Table.get?_insert] at hk
    split at hk
    · exact .inl ‹_›
    · exact .inr hk
  total := by
    have htotal := s.total_withShard key ((s.shard key).insert key value)
    -- the shard grows exactly where the table does
    have hsame : (s.shard key).get? key = t.get? key := h.holds.value? key
    rw [Table.size_insert, hsame, h.total] at htotal
    rw [Table.size_insert]
    exact Nat.add_right_cancel (htotal.trans (by omega))

theorem delete (h : s.Sharded t) (key : Bytes) : (s.delete key).2.Sharded (t.erase key) where
  holds := (h.holds.delete key).2
  placed := by
    refine h.placed.withShard fun k hk => ?_
    rw [Table.binds_erase, Bool.and_eq_true] at hk
    exact .inr hk.2
  total := by
    have htotal := s.total_withShard key ((s.shard key).erase key)
    have hsize := (s.shard key).size_erase key
    have hsize' := t.size_erase key
    have hsame : (s.shard key).get? key = t.get? key := h.holds.value? key
    rw [hsame] at hsize
    have hunbound : (s.delete key).2.total = (s.withShard key ((s.shard key).erase key)).total :=
      rfl
    have := h.total
    omega

theorem deleteMany (h : s.Sharded t) (keys : List Bytes) :
    (s.deleteMany keys).2.Sharded (t.eraseAll keys) := by
  induction keys generalizing s t with
  | nil => exact h
  | cons key keys ih => exact ih (h.delete key)

/-- A key that is unbound was counted: where it goes the count goes down by one, and not below
zero. -/
theorem count_delete (h : s.Sharded t) {key : Bytes} (hbound : (s.delete key).1 = true) :
    (s.delete key).2.total + 1 = s.total ∧
      (s.total < 2 ^ 64 → (s.delete key).2.keys.toNat + 1 = s.keys.toNat) := by
  have hafter := h.delete key
  have hsize := t.size_erase key
  have hbinds : (t.get? key).isSome = true := (h.holds.delete key).1.symm.trans hbound
  rw [hbinds, Bool.toNat_true, ← h.total, ← hafter.total] at hsize
  refine ⟨hsize.symm, fun hfits => ?_⟩
  -- both counts fit a word, so they are what they count
  rw [hafter.holds.keys, h.holds.keys, ← hafter.total, ← h.total, UInt64.toNat_ofNat',
    UInt64.toNat_ofNat', Nat.mod_eq_of_lt (by omega), Nat.mod_eq_of_lt hfits]
  exact hsize.symm

/-- As long as a word can hold it, the count is exact. -/
theorem exact_size (h : s.Sharded t) (hfits : t.size < 2 ^ 64) :
    s.size.toNat = t.size ∧ (s.isEmpty = true ↔ t.bindings = []) := by
  have hsize : s.size.toNat = t.size := by
    rw [size, h.holds.keys, UInt64.toNat_ofNat', Nat.mod_eq_of_lt hfits]
  refine ⟨hsize, ?_⟩
  rw [isEmpty, beq_iff_eq, ← UInt64.toNat_inj, hsize, ← List.length_eq_zero_iff]
  exact Iff.rfl

end Sharded

/-! ## The counters of operations -/

/-- The counters of operations, and where keys belong. -/
structure Records (s : Store) (place : Bytes → Fin shardCount) (gets sets dels : Nat) : Prop where
  place : s.place = place
  gets : s.gets = UInt64.ofNat gets
  sets : s.sets = UInt64.ofNat sets
  dels : s.dels = UInt64.ofNat dels

namespace Records

variable {place : Bytes → Fin shardCount} {gets sets dels : Nat}

theorem delete (h : s.Records place gets sets dels) (key : Bytes) :
    (s.delete key).2.Records place gets sets (dels + 1) where
  place := h.place
  gets := h.gets
  sets := h.sets
  dels := by
    change s.dels + 1 = _
    rw [h.dels, UInt64.ofNat_add]
    rfl

theorem deleteMany (h : s.Records place gets sets dels) (keys : List Bytes) :
    (s.deleteMany keys).2.Records place gets sets (dels + keys.length) := by
  induction keys generalizing s dels with
  | nil => exact h
  | cons key keys ih =>
      have hrest := ih (h.delete key)
      rw [Nat.add_assoc, Nat.add_comm 1] at hrest
      exact hrest

/-- Every operation is counted for what it is. -/
theorem perform (h : s.Records place gets sets dels) (op : Operation) :
    (s.perform op).2.Records place (gets + op.lookups) (sets + op.bindings)
      (dels + op.deletions) := by
  cases op with
  | set key value =>
      refine ⟨h.place, h.gets, ?_, h.dels⟩
      change s.sets + 1 = _
      rw [h.sets, UInt64.ofNat_add]
      rfl
  | get key =>
      refine ⟨h.place, ?_, h.sets, h.dels⟩
      change s.gets + 1 = _
      rw [h.gets, UInt64.ofNat_add]
      rfl
  | delete key => exact h.delete key
  | deleteMany keys => exact h.deleteMany keys
  | contains key => exact h
  | containsMany keys => exact h
  | size => exact h
  | isEmpty => exact h

end Records

/-! ## One step and many -/

/-- **An operation on a store is the operation on its table.** -/
theorem Sharded.perform (h : s.Sharded t) (op : Operation) :
    (s.perform op).1 = (t.perform op).1 ∧ (s.perform op).2.Sharded (t.perform op).2 := by
  cases op with
  | set key value => exact ⟨congrArg Outcome.value (h.holds.set key value).1, h.set key value⟩
  | get key => exact ⟨congrArg Outcome.value (h.holds.get key).1, h.get key⟩
  | delete key => exact ⟨congrArg Outcome.flag (h.holds.delete key).1, h.delete key⟩
  | deleteMany keys =>
      exact ⟨congrArg Outcome.count (h.holds.deleteMany keys).1, h.deleteMany keys⟩
  | contains key => exact ⟨congrArg Outcome.flag (h.holds.delete key).1, h⟩
  | containsMany keys => exact ⟨congrArg Outcome.count (h.holds.containsMany keys), h⟩
  | size => exact ⟨congrArg Outcome.word h.holds.keys, h⟩
  | isEmpty => exact ⟨congrArg (fun n : UInt64 => Outcome.flag (n == 0)) h.holds.keys, h⟩

/-- What holds of a store after operations that make `t` of a table. -/
structure Counted (s : Store) (t : Table) (place : Bytes → Fin shardCount)
    (ops : List Operation) : Prop where
  /-- A look up finds what the table binds. -/
  value? : ∀ key, s.value? key = t.get? key
  /-- A key is in the shard that it belongs to, and in no other. -/
  shard : ∀ (i : Fin shardCount) (key : Bytes),
    s.shards[i].binds key = (decide (i = place key) && t.binds key)
  total : s.total = t.size
  keys : s.keys = UInt64.ofNat s.total
  gets : s.gets = UInt64.ofNat (ops.map Operation.lookups).sum
  sets : s.sets = UInt64.ofNat (ops.map Operation.bindings).sum
  dels : s.dels = UInt64.ofNat (ops.map Operation.deletions).sum
  /-- The count of keys goes down where a bound key is unbound, and is not zero there. -/
  falls : ∀ key, (s.delete key).1 = true → (s.delete key).2.total + 1 = s.total ∧
    (s.total < 2 ^ 64 → (s.delete key).2.keys.toNat + 1 = s.keys.toNat)
  /-- It stays where an unbound key is to be unbound. -/
  stays : ∀ key, (s.delete key).1 = false → (s.delete key).2.keys = s.keys
  /-- Keys that are unbound together are unbound one after another. -/
  batch : ∀ keys, (s.deleteMany keys).2 = (s.performAll (keys.map .delete)).2
  /-- As long as a word can hold it, the size is exact. -/
  exact_size : t.size < 2 ^ 64 → s.size.toNat = t.size ∧ (s.isEmpty = true ↔ t.bindings = [])
  /-- What only asks changes nothing. -/
  asks : ∀ op : Operation, op.asks = true → (s.perform op).2 = s

theorem deleteMany_eq_performAll (s : Store) (keys : List Bytes) :
    (s.deleteMany keys).2 = (s.performAll (keys.map .delete)).2 := by
  induction keys generalizing s with
  | nil => rfl
  | cons key keys ih => exact ih (s.delete key).2

theorem perform_of_asks (s : Store) {op : Operation} (h : op.asks = true) :
    (s.perform op).2 = s := by
  cases op with
  | contains key => rfl
  | containsMany keys => rfl
  | size => rfl
  | isEmpty => rfl
  | _ => cases h

theorem Sharded.counted {place : Bytes → Fin shardCount} {ops : List Operation}
    (h : s.Sharded t)
    (hrecords : s.Records place (ops.map Operation.lookups).sum (ops.map Operation.bindings).sum
      (ops.map Operation.deletions).sum) : s.Counted t place ops where
  value? := h.holds.value?
  shard i key := by
    have hvalue : (s.shard key).binds key = t.binds key :=
      congrArg Option.isSome (h.holds.value? key)
    by_cases hi : i = place key
    · rw [decide_eq_true hi, Bool.true_and, ← hvalue, hi, ← hrecords.place]
      rfl
    · rw [decide_eq_false hi, Bool.false_and, Bool.eq_false_iff]
      intro hbound
      exact hi ((h.placed i key hbound).trans (congrFun hrecords.place key))
  total := h.total
  keys := by rw [h.holds.keys, h.total]
  gets := hrecords.gets
  sets := hrecords.sets
  dels := hrecords.dels
  falls key := h.count_delete
  stays key hunbound := by
    change (if (s.delete key).1 then s.keys - 1 else s.keys) = s.keys
    rw [hunbound]
    rfl
  batch := s.deleteMany_eq_performAll
  exact_size := h.exact_size
  asks op := s.perform_of_asks

/-- Operations one after another on a store are those on its table. -/
theorem Sharded.performAll {place : Bytes → Fin shardCount} {gets sets dels : Nat}
    (h : s.Sharded t) (hrecords : s.Records place gets sets dels) (ops : List Operation) :
    (s.performAll ops).1 = (t.performAll ops).1 ∧
      (s.performAll ops).2.Sharded (t.performAll ops).2 ∧
      (s.performAll ops).2.Records place (gets + (ops.map Operation.lookups).sum)
        (sets + (ops.map Operation.bindings).sum) (dels + (ops.map Operation.deletions).sum) := by
  induction ops generalizing s t gets sets dels with
  | nil => exact ⟨rfl, h, hrecords⟩
  | cons op ops ih =>
      obtain ⟨houtcome, hafter⟩ := h.perform op
      obtain ⟨houtcomes, hsharded, hall⟩ := ih hafter (hrecords.perform op)
      refine ⟨?_, hsharded, ?_⟩
      · exact congrArg₂ List.cons houtcome houtcomes
      · rw [Nat.add_assoc, Nat.add_assoc, Nat.add_assoc] at hall
        exact hall

/-- **A store is one table with exact counters**, whatever is done with it and however the keys are
spread over its shards. -/
theorem performAll_one_table (place : Bytes → Fin shardCount) (ops : List Operation) :
    ((empty place).performAll ops).1 = (Table.empty.performAll ops).1 ∧
      ((empty place).performAll ops).2.Counted (Table.empty.performAll ops).2 place ops := by
  have hrecords : (empty place).Records place 0 0 0 := ⟨rfl, rfl, rfl, rfl⟩
  obtain ⟨houtcomes, hsharded, hall⟩ := (sharded_empty place).performAll hrecords ops
  simp only [Nat.zero_add] at hall
  exact ⟨houtcomes, hsharded.counted hall⟩

end RespGateway.Store
