import Mathlib.Data.List.Dedup
import RespGateway.Store

/-!
# The store as one table

However the keys are spread over the shards, a store answers as one table does: a look
up finds what the table binds, and the counter of keys is the size of the table, in a
word of 64 bits. `Holds` says so, and each operation of the store keeps it with the same
operation on the table.
-/

namespace RespGateway.Store

/-! ## Tables -/

namespace Table

theorem lookup_others (t : Table) (key k : Bytes) :
    (t.others key).lookup k = if k = key then none else t.get? k := by
  unfold others get?
  induction t.bindings with
  | nil => simp
  | cons binding bindings ih =>
      obtain ⟨k', value⟩ := binding
      by_cases hk' : k' = key
      · subst hk'
        rw [List.filter_cons_of_neg (by simp), ih, List.lookup_cons]
        by_cases hk : k = k'
        · rw [if_pos hk, if_pos hk]
        · rw [if_neg hk, if_neg hk, beq_false_of_ne hk]
      · rw [List.filter_cons_of_pos (by simpa using hk'), List.lookup_cons, List.lookup_cons, ih]
        by_cases hk : k = key
        · rw [if_pos hk, if_pos hk, beq_false_of_ne (fun heq => hk' (heq.symm.trans hk))]
        · rw [if_neg hk, if_neg hk]

theorem get?_insert (t : Table) (key value k : Bytes) :
    (t.insert key value).get? k = if k = key then some value else t.get? k := by
  rw [get?, insert, List.lookup_cons, lookup_others]
  by_cases hk : k = key
  · rw [if_pos hk, hk, beq_self_eq_true, if_pos rfl]
  · rw [if_neg hk, if_neg hk, beq_false_of_ne hk]

theorem get?_erase (t : Table) (key k : Bytes) :
    (t.erase key).get? k = if k = key then none else t.get? k := lookup_others t key k

theorem get?_eq_none {t : Table} {key : Bytes} :
    t.get? key = none ↔ key ∉ t.bindings.map Prod.fst := by
  rw [get?, List.lookup_eq_none_iff]
  constructor
  · intro h hmem
    obtain ⟨binding, hbinding, heq⟩ := List.mem_map.mp hmem
    simpa [heq] using h binding hbinding
  · intro h binding hbinding
    have hne : key ≠ binding.1 := fun heq => h (heq ▸ List.mem_map_of_mem hbinding)
    simpa using hne

/-- A table binds a key once if at all. -/
theorem size_others (t : Table) (key : Bytes) :
    t.size = (t.others key).length + (t.get? key).isSome.toNat := by
  obtain ⟨bindings, hnodup⟩ := t
  unfold size others get?
  dsimp only
  induction bindings with
  | nil => rfl
  | cons binding bindings ih =>
      obtain ⟨k, value⟩ := binding
      rw [List.map_cons, List.nodup_cons] at hnodup
      have hrest := ih hnodup.2
      rw [List.length_cons, List.lookup_cons]
      by_cases hk : k = key
      · subst hk
        rw [List.filter_cons_of_neg (by simp), beq_self_eq_true]
        -- the key is not bound again behind its binding
        have hnone : bindings.lookup k = none :=
          (get?_eq_none (t := ⟨bindings, hnodup.2⟩)).mpr hnodup.1
        rw [hnone] at hrest
        simpa using hrest
      · rw [List.filter_cons_of_pos (by simpa using hk), List.length_cons,
          beq_false_of_ne (Ne.symm hk)]
        dsimp only
        omega

theorem size_insert (t : Table) (key value : Bytes) :
    (t.insert key value).size = t.size + (t.get? key).isNone.toNat := by
  rw [size_others t key, size, insert, List.length_cons]
  cases t.get? key <;> simp

theorem size_erase (t : Table) (key : Bytes) :
    t.size = (t.erase key).size + (t.get? key).isSome.toNat := size_others t key

/-- Unbinds keys. -/
def eraseAll (t : Table) (keys : List Bytes) : Table := keys.foldl erase t

/-- Whether a key is bound. -/
def binds (t : Table) (key : Bytes) : Bool := (t.get? key).isSome

theorem binds_erase (t : Table) (key k : Bytes) :
    (t.erase key).binds k = (decide (k ≠ key) && t.binds k) := by
  rw [binds, get?_erase]
  by_cases hk : k = key
  · simp [hk]
  · simp [hk, binds]

/-- Of different keys those that are bound without one of them, and that one if it is. -/
theorem countP_binds_erase (t : Table) (key : Bytes) {keys : List Bytes} (h : keys.Nodup) :
    keys.countP t.binds =
      keys.countP (t.erase key).binds + (decide (key ∈ keys) && t.binds key).toNat := by
  induction keys with
  | nil => rfl
  | cons k keys ih =>
      rw [List.nodup_cons] at h
      have hrest := ih h.2
      rw [List.countP_cons, List.countP_cons, binds_erase]
      -- the key stands at one place at most: here, or further on
      by_cases hk : k = key
      · subst hk
        rw [decide_eq_false h.1] at hrest
        cases hbinds : t.binds k <;> simp [hbinds] at hrest ⊢ <;> omega
      · have hne : key ≠ k := Ne.symm hk
        cases t.binds k <;> simp [hk, hne] at hrest ⊢ <;> omega

/-- Unbinding keys one after another unbinds each of them once. -/
theorem countP_dedup_cons (t : Table) (key : Bytes) (keys : List Bytes) :
    (key :: keys).dedup.countP t.binds =
      (t.binds key).toNat + keys.dedup.countP (t.erase key).binds := by
  have hcount := t.countP_binds_erase key (List.nodup_dedup keys)
  by_cases hmem : key ∈ keys
  · rw [List.dedup_cons_of_mem hmem, hcount, decide_eq_true (List.mem_dedup.mpr hmem)]
    simp only [Bool.true_and]
    omega
  · rw [List.dedup_cons_of_notMem hmem, List.countP_cons, hcount,
      decide_eq_false (fun h => hmem (List.mem_dedup.mp h))]
    cases t.binds key <;> simp [Nat.add_comm]

end Table

/-! ## Stores -/

/-- A store answers as one table does. -/
structure Holds (s : Store) (t : Table) : Prop where
  value? : ∀ key, s.value? key = t.get? key
  keys : s.keys = UInt64.ofNat t.size

theorem holds_empty (place : Bytes → Fin shardCount) : (empty place).Holds .empty := by
  refine ⟨fun key => ?_, rfl⟩
  simp [Store.value?, shard, empty]

/-- A shard that differs at one key changes the value of that key and of no other. -/
theorem value?_withShard (s : Store) (key : Bytes) {table : Table}
    (h : ∀ k, k ≠ key → table.get? k = (s.shard key).get? k) (k : Bytes) :
    (s.withShard key table).value? k = if k = key then table.get? k else s.value? k := by
  have hset : (s.withShard key table).value? k =
      if s.place k = s.place key then table.get? k else s.value? k := by
    unfold Store.value? shard withShard
    by_cases hplace : s.place k = s.place key
    · simp [hplace]
    · have hne : (s.place key).val ≠ (s.place k).val := fun heq => hplace (Fin.ext heq.symm)
      simp [hplace, hne]
  rw [hset]
  by_cases hk : k = key
  · rw [if_pos hk, if_pos (congrArg s.place hk)]
  · rw [if_neg hk]
    by_cases hplace : s.place k = s.place key
    · rw [if_pos hplace, h k hk, Store.value?, shard, shard]
      simp only [hplace]
    · rw [if_neg hplace]

theorem value?_set (s : Store) (key value k : Bytes) :
    (s.set key value).2.value? k = if k = key then some value else s.value? k := by
  change (s.withShard key ((s.shard key).insert key value)).value? k = _
  rw [value?_withShard s key fun k hk => by rw [Table.get?_insert, if_neg hk], Table.get?_insert]
  split <;> rfl

theorem value?_delete (s : Store) (key k : Bytes) :
    (s.delete key).2.value? k = if k = key then none else s.value? k := by
  change (s.withShard key ((s.shard key).erase key)).value? k = _
  rw [value?_withShard s key fun k hk => by rw [Table.get?_erase, if_neg hk], Table.get?_erase]
  split <;> rfl

namespace Holds

variable {s : Store} {t : Table}

theorem get (h : s.Holds t) (key : Bytes) :
    (s.get key).1 = t.get? key ∧ (s.get key).2.Holds t :=
  ⟨h.value? key, ⟨h.value?, h.keys⟩⟩

theorem set (h : s.Holds t) (key value : Bytes) :
    (s.set key value).1 = t.get? key ∧ (s.set key value).2.Holds (t.insert key value) := by
  refine ⟨h.value? key, fun k => ?_, ?_⟩
  · rw [value?_set, Table.get?_insert, h.value? k]
  · change (if (s.value? key).isNone then s.keys + 1 else s.keys) = _
    rw [Table.size_insert, h.value? key, h.keys]
    cases t.get? key with
    | none => exact (UInt64.ofNat_add t.size 1).symm
    | some value => rfl

theorem delete (h : s.Holds t) (key : Bytes) :
    (s.delete key).1 = t.binds key ∧ (s.delete key).2.Holds (t.erase key) := by
  refine ⟨congrArg Option.isSome (h.value? key), fun k => ?_, ?_⟩
  · rw [value?_delete, Table.get?_erase, h.value? k]
  · change (if (s.value? key).isSome then s.keys - 1 else s.keys) = _
    have hsize := t.size_erase key
    rw [h.value? key, h.keys]
    cases hvalue : t.get? key with
    | none =>
        rw [hvalue] at hsize
        rw [hsize]
        rfl
    | some value =>
        rw [hvalue] at hsize
        rw [hsize]
        -- the count may have wrapped around, and wraps back
        change UInt64.ofNat ((t.erase key).size + 1) - 1 = _
        rw [UInt64.ofNat_add]
        exact UInt64.add_sub_cancel _ _

theorem deleteMany (h : s.Holds t) (keys : List Bytes) :
    (s.deleteMany keys).1 = keys.dedup.countP t.binds ∧
      (s.deleteMany keys).2.Holds (t.eraseAll keys) := by
  induction keys generalizing s t with
  | nil => exact ⟨rfl, h⟩
  | cons key keys ih =>
      obtain ⟨hpresent, hrest⟩ := h.delete key
      obtain ⟨hcount, hall⟩ := ih hrest
      refine ⟨?_, hall⟩
      rw [Table.countP_dedup_cons, ← hpresent, ← hcount]
      rfl

theorem containsMany (h : s.Holds t) (keys : List Bytes) :
    s.containsMany keys = keys.countP t.binds := by
  refine List.countP_congr fun key _ => ?_
  rw [contains, h.value? key]
  rfl

end Holds

end RespGateway.Store
