import RespGateway.Proofs.Sharding

/-!
# Keys in batches

A batch of keys is unbound one key after another, so a key that stands in it twice is bound
only when its first turn comes. Still the order does not matter: unbinding two keys is the
same either way (`delete_comm`), and what a batch does depends only on which keys are in it
and how often. `Batched` collects what a batch does to a store.
-/

namespace RespGateway.Store

variable {s : Store} {t : Table}

/-! ## One key after another -/

theorem Table.erase_comm (t : Table) (a b : Bytes) :
    (t.erase a).erase b = (t.erase b).erase a := by
  simp only [Table.erase, Table.others, List.filter_filter, Table.mk.injEq]
  exact List.filter_congr fun binding _ => Bool.and_comm ..

theorem shards_delete (s : Store) (key : Bytes) {i : Nat} (h : i < shardCount) :
    (s.delete key).2.shards[i] =
      if ⟨i, h⟩ = s.place key then s.shards[i].erase key else s.shards[i] := by
  have hdelete : (s.delete key).2.shards[i] =
      if ⟨i, h⟩ = s.place key then (s.shard key).erase key else s.shards[i] :=
    shards_withShard s key ((s.shard key).erase key) ⟨i, h⟩
  rw [hdelete]
  by_cases hi : ⟨i, h⟩ = s.place key
  · have hshard : s.shard key = s.shards[i] := by simp only [shard, ← hi, Fin.getElem_fin]
    rw [if_pos hi, if_pos hi, hshard]
  · rw [if_neg hi, if_neg hi]

theorem keys_delete (s : Store) (key : Bytes) :
    (s.delete key).2.keys = if (s.value? key).isSome then s.keys - 1 else s.keys := rfl

/-- Stores with the same shards and counters are the same. -/
theorem eq_of_shards {s s' : Store} (hplace : s.place = s'.place)
    (hshards : ∀ (i : Nat) (_ : i < shardCount), s.shards[i] = s'.shards[i])
    (hkeys : s.keys = s'.keys) (hgets : s.gets = s'.gets) (hsets : s.sets = s'.sets)
    (hdels : s.dels = s'.dels) : s = s' := by
  obtain ⟨place, shards, keys, gets, sets, dels⟩ := s
  obtain ⟨place', shards', keys', gets', sets', dels'⟩ := s'
  obtain rfl : shards = shards' := Vector.ext hshards
  simp_all

/-- **Which of two keys is unbound first does not matter.** -/
theorem delete_comm (s : Store) (a b : Bytes) :
    ((s.delete a).2.delete b).2 = ((s.delete b).2.delete a).2 := by
  by_cases hab : a = b
  · rw [hab]
  · refine eq_of_shards rfl (fun i h => ?_) ?_ rfl rfl rfl
    · have hplace : ∀ key, (s.delete key).2.place = s.place := fun _ => rfl
      rw [shards_delete, shards_delete, shards_delete, shards_delete, hplace, hplace]
      by_cases ha : ⟨i, h⟩ = s.place a
      · by_cases hb : ⟨i, h⟩ = s.place b
        · simp only [if_pos ha, if_pos hb, Table.erase_comm]
        · simp only [if_pos ha, if_neg hb]
      · by_cases hb : ⟨i, h⟩ = s.place b
        · simp only [if_neg ha, if_pos hb]
        · simp only [if_neg ha, if_neg hb]
    · rw [keys_delete, keys_delete, keys_delete, keys_delete, value?_delete, value?_delete,
        if_neg (Ne.symm hab), if_neg hab]
      cases (s.value? a).isSome <;> cases (s.value? b).isSome <;> rfl

/-! ## Batches -/

theorem deleteMany_cons (s : Store) (key : Bytes) (keys : List Bytes) :
    s.deleteMany (key :: keys) =
      ((s.delete key).1.toNat + ((s.delete key).2.deleteMany keys).1,
        ((s.delete key).2.deleteMany keys).2) := rfl

theorem deleteMany_append (s : Store) (first second : List Bytes) :
    s.deleteMany (first ++ second) =
      ((s.deleteMany first).1 + ((s.deleteMany first).2.deleteMany second).1,
        ((s.deleteMany first).2.deleteMany second).2) := by
  induction first generalizing s with
  | nil => exact Prod.ext (Nat.zero_add _).symm rfl
  | cons key first ih =>
      rw [List.cons_append, deleteMany_cons, deleteMany_cons, ih (s.delete key).2]
      exact Prod.ext (Nat.add_assoc ..).symm rfl

/-- What is left of a store does not depend on the order of a batch. -/
theorem deleteMany_perm_state (s : Store) {keys keys' : List Bytes} (h : keys.Perm keys') :
    (s.deleteMany keys).2 = (s.deleteMany keys').2 := by
  induction h generalizing s with
  | nil => rfl
  | cons key _ ih => exact ih (s.delete key).2
  | swap a b keys => exact congrArg (fun s => (deleteMany s keys).2) (s.delete_comm b a)
  | trans _ _ ih ih' => exact (ih s).trans (ih' s)

theorem value?_deleteMany (s : Store) (keys : List Bytes) (key : Bytes) :
    (s.deleteMany keys).2.value? key = if key ∈ keys then none else s.value? key := by
  induction keys generalizing s with
  | nil => exact (if_neg (by simp)).symm
  | cons k keys ih =>
      rw [deleteMany_cons, ih, value?_delete]
      by_cases hk : key = k
      · simp [hk]
      · simp [hk]

/-- The count of keys goes down by as many as were bound. -/
theorem size_deleteMany (s : Store) (keys : List Bytes) :
    (s.deleteMany keys).2.size + UInt64.ofNat (s.deleteMany keys).1 = s.size := by
  induction keys generalizing s with
  | nil => exact UInt64.add_zero s.size
  | cons key keys ih =>
      have hone : (s.delete key).2.size + UInt64.ofNat (s.delete key).1.toNat = s.size := by
        rw [size, keys_delete]
        change (if (s.value? key).isSome then s.keys - 1 else s.keys) +
          UInt64.ofNat (s.value? key).isSome.toNat = s.keys
        cases (s.value? key).isSome with
        | false => exact UInt64.add_zero s.keys
        | true => exact UInt64.sub_add_cancel s.keys 1
      have hrest := ih (s.delete key).2
      rw [← hone, ← hrest, deleteMany_cons, UInt64.ofNat_add, UInt64.add_comm (UInt64.ofNat _),
        UInt64.add_assoc]

theorem dels_deleteMany (s : Store) (keys : List Bytes) :
    (s.deleteMany keys).2.dels = s.dels + UInt64.ofNat keys.length := by
  induction keys generalizing s with
  | nil => exact (UInt64.add_zero s.dels).symm
  | cons key keys ih =>
      have hone : (s.delete key).2.dels = s.dels + 1 := rfl
      rw [deleteMany_cons, ih, hone, List.length_cons, Nat.add_comm, UInt64.ofNat_add,
        UInt64.add_assoc]
      rfl

/-- Of unbound keys none is bound. -/
theorem containsMany_deleteMany (s : Store) (keys : List Bytes) :
    (s.deleteMany keys).2.containsMany keys = 0 := by
  refine List.countP_eq_zero.mpr fun key hkey => ?_
  rw [contains, value?_deleteMany, if_pos hkey]
  simp

/-- Each place of a list counts for itself. -/
theorem containsMany_eq_sum (s : Store) (keys : List Bytes) :
    s.containsMany keys = (keys.map fun key => (s.contains key).toNat).sum := by
  induction keys with
  | nil => rfl
  | cons key keys ih =>
      have hcons : s.containsMany (key :: keys) =
          s.containsMany keys + (s.contains key).toNat := by
        rw [containsMany, List.countP_cons]
        cases s.contains key <;> rfl
      rw [hcons, ih, List.map_cons, List.sum_cons, Nat.add_comm]

/-! ## What a batch does -/

/-- What a batch of keys does to a store. -/
structure Batched (s : Store) (keys : List Bytes) : Prop where
  /-- The keys that were bound are counted, each once. -/
  count : (s.deleteMany keys).1 = keys.dedup.countP s.contains
  /-- They are unbound, and no other key changes its value. -/
  value? : ∀ key, (s.deleteMany keys).2.value? key = if key ∈ keys then none else s.value? key
  /-- The size goes down by as many, as a word. -/
  size : (s.deleteMany keys).2.size + UInt64.ofNat (s.deleteMany keys).1 = s.size
  /-- There are fewer keys in the shards by as many. -/
  total : (s.deleteMany keys).2.total + (s.deleteMany keys).1 = s.total
  /-- As long as a word can hold the size, no word wraps around. -/
  exact_size : s.total < 2 ^ 64 →
    (s.deleteMany keys).2.size.toNat + (s.deleteMany keys).1 = s.size.toNat
  dels : (s.deleteMany keys).2.dels = s.dels + UInt64.ofNat keys.length
  /-- The order of the keys does not matter. -/
  perm : ∀ keys', keys.Perm keys' → s.deleteMany keys' = s.deleteMany keys
  /-- The second time nothing is bound any more. -/
  again : ((s.deleteMany keys).2.deleteMany keys).1 = 0
  /-- A question about the keys counts each place of the list and changes nothing. -/
  asked : s.perform (.containsMany keys) =
    (.count (keys.map fun key => (s.contains key).toNat).sum, s)
  gone : (s.deleteMany keys).2.containsMany keys = 0
  /-- The batch may be split anywhere. -/
  split : ∀ first second, keys = first ++ second →
    s.deleteMany keys =
        ((s.deleteMany first).1 + ((s.deleteMany first).2.deleteMany second).1,
          ((s.deleteMany first).2.deleteMany second).2) ∧
      s.containsMany keys = s.containsMany first + s.containsMany second

namespace Sharded

theorem count_deleteMany (h : s.Sharded t) (keys : List Bytes) :
    (s.deleteMany keys).1 = keys.dedup.countP s.contains := by
  have hcontains : s.contains = t.binds := funext fun key => (h.holds.delete key).1
  rw [(h.holds.deleteMany keys).1, hcontains]

theorem total_deleteMany (h : s.Sharded t) (keys : List Bytes) :
    (s.deleteMany keys).2.total + (s.deleteMany keys).1 = s.total := by
  induction keys generalizing s t with
  | nil => rw [Store.deleteMany, Nat.add_zero]
  | cons key keys ih =>
      have hrest := ih (h.delete key)
      have hone : (s.delete key).2.total + (s.delete key).1.toNat = s.total := by
        have hafter := (h.delete key).total
        have hsize := t.size_erase key
        have hpresent : (s.delete key).1 = (t.get? key).isSome := (h.holds.delete key).1
        rw [hpresent, hafter, h.total, hsize]
      rw [deleteMany_cons]
      dsimp only
      omega

theorem exact_deleteMany (h : s.Sharded t) (keys : List Bytes) (hfits : s.total < 2 ^ 64) :
    (s.deleteMany keys).2.size.toNat + (s.deleteMany keys).1 = s.size.toNat := by
  have hafter := h.deleteMany keys
  have htotal := h.total_deleteMany keys
  rw [h.total, hafter.total] at htotal
  rw [h.total] at hfits
  rw [(h.exact_size hfits).1, (hafter.exact_size (by omega)).1]
  exact htotal

theorem batched (h : s.Sharded t) (keys : List Bytes) : s.Batched keys where
  count := h.count_deleteMany keys
  value? := s.value?_deleteMany keys
  size := s.size_deleteMany keys
  total := h.total_deleteMany keys
  exact_size := h.exact_deleteMany keys
  dels := s.dels_deleteMany keys
  perm := by
    intro keys' hperm
    refine Prod.ext ?_ (s.deleteMany_perm_state hperm).symm
    rw [h.count_deleteMany, h.count_deleteMany]
    exact (hperm.dedup.countP_eq _).symm
  again := by
    rw [(h.deleteMany keys).count_deleteMany, List.countP_eq_zero]
    intro key hkey
    rw [contains, value?_deleteMany, if_pos (List.mem_dedup.mp hkey)]
    simp
  asked := congrArg (fun n => (Outcome.count n, s)) (s.containsMany_eq_sum keys)
  gone := s.containsMany_deleteMany keys
  split := by
    intro first second hkeys
    rw [hkeys]
    exact ⟨s.deleteMany_append first second, List.countP_append⟩

end Sharded

/-- **A batch of keys is worked off the same in any order and in any number of parts**, whatever has
been done with the store before. -/
theorem performAll_batched (place : Bytes → Fin shardCount) (ops : List Operation)
    (keys : List Bytes) : ((empty place).performAll ops).2.Batched keys := by
  have hrecords : (empty place).Records place 0 0 0 := ⟨rfl, rfl, rfl, rfl⟩
  exact ((sharded_empty place).performAll hrecords ops).2.1.batched keys

/-- A key that is asked to be unbound twice is counted once, and asked about twice is counted
twice. -/
example : (((fresh.set [107] [118]).2.deleteMany [[107], [120], [107]]).1,
    (fresh.set [107] [118]).2.containsMany [[107], [120], [107]]) = (1, 2) := by
  decide +kernel

end RespGateway.Store
