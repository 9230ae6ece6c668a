import Mathlib.Data.List.Perm.Basic
import RespGateway.Store.Errand

/-!
# Errands that come in between one another

An errand to which nothing comes in between answers its query as the store does
(`answer_eq`). Where several errands are at one store, their accesses are in any order, and
the store is in a state that no part by itself would leave: there are operations counted
that have not come to their table, and keys that have come or gone and are not counted.

`Tracks` relates such a store to one in which every part is done at one go, when it comes
to its table. One access keeps the two in step (`Tracks.step`), and a part finds the same in
both (`Tracks.near`); only the count of the keys lags behind, by the parts under way.
-/

namespace RespGateway.Store

variable {s s' : Store}

/-! ## Parts at one go -/

theorem perform_set (s : Store) (key value : Bytes) :
    (Part.set key value).perform s = (.value (s.set key value).1, (s.set key value).2) := by
  have hsame : ((Part.set key value).count s).value? key = s.value? key := rfl
  simp only [Part.perform, Part.touch, hsame, set]
  cases s.value? key <;> rfl

theorem perform_delete (s : Store) (key : Bytes) :
    (Part.delete key).perform s = (.flag (s.delete key).1, (s.delete key).2) := by
  have hsame : ((Part.delete key).count s).value? key = s.value? key := rfl
  simp only [Part.perform, Part.touch, hsame, delete]
  cases s.value? key <;> rfl

theorem carryOut_append (s : Store) (ps ps' : List Part) :
    s.carryOut (ps ++ ps') =
      ((s.carryOut ps).1 ++ ((s.carryOut ps).2.carryOut ps').1,
        ((s.carryOut ps).2.carryOut ps').2) := by
  induction ps generalizing s with
  | nil => rfl
  | cons p ps ih => simp only [List.cons_append, carryOut, ih]

theorem length_carryOut (s : Store) (ps : List Part) :
    (s.carryOut ps).1.length = ps.length := by
  induction ps generalizing s with
  | nil => rfl
  | cons p ps ih => simp only [carryOut, List.length_cons, ih]

theorem carryOut_delete (s : Store) (keys : List Bytes) :
    ((s.carryOut (keys.map .delete)).1.count (.flag true) = (s.deleteMany keys).1 ∧
      (s.carryOut (keys.map .delete)).2 = (s.deleteMany keys).2) := by
  induction keys generalizing s with
  | nil => exact ⟨rfl, rfl⟩
  | cons key keys ih =>
      obtain ⟨hcount, hstore⟩ := ih (s.delete key).2
      simp only [List.map_cons, carryOut, deleteMany, perform_delete, List.count_cons, hcount,
        hstore, and_true]
      cases (s.delete key).1 <;> simp [Nat.add_comm]

theorem carryOut_contains (s : Store) (keys : List Bytes) :
    s.carryOut (keys.map .contains) = (keys.map fun key => .flag (s.contains key), s) := by
  induction keys with
  | nil => rfl
  | cons key keys ih =>
      have hfirst : (Part.contains key).perform s = (.flag (s.contains key), s) := rfl
      simp only [List.map_cons, carryOut, hfirst, ih]

/-- **A query is answered by its parts, one after another.** -/
theorem answer_eq (s : Store) (q : Cache.Query) :
    s.answer q = (q.conclude (s.carryOut q.parts).1, (s.carryOut q.parts).2) := by
  obtain ⟨operation, client, subject, value, keys⟩ := q
  cases operation with
  | get => cases subject <;> rfl
  | put =>
      cases subject <;> cases value <;> try rfl
      simp only [answer, Cache.Query.parts, carryOut, perform_set, Cache.Query.conclude]
  | getAndPut =>
      cases subject <;> cases value <;> try rfl
      simp only [answer, Cache.Query.parts, carryOut, perform_set, Cache.Query.conclude]
  | remove =>
      cases keys with
      | nil => rfl
      | cons key keys =>
          obtain ⟨hcount, hstore⟩ := s.carryOut_delete (key :: keys)
          have hanswer : s.answer ⟨.remove, client, subject, value, key :: keys⟩ =
            (.success (countPayload (UInt64.ofNat (s.deleteMany (key :: keys)).1)),
              (s.deleteMany (key :: keys)).2) := rfl
          rw [hanswer, ← hcount, ← hstore]
          rfl
  | containsKey =>
      cases keys with
      | nil => rfl
      | cons key keys =>
          have hcount :
              ((key :: keys).map fun k => Finding.flag (s.contains k)).count (.flag true) =
                s.containsMany (key :: keys) := by
            rw [List.count, List.countP_map]
            refine List.countP_congr fun k _ => ?_
            simp
          have hanswer : s.answer ⟨.containsKey, client, subject, value, key :: keys⟩ =
            (.success (countPayload (UInt64.ofNat (s.containsMany (key :: keys)))), s) := rfl
          rw [hanswer, ← hcount]
          simp only [Cache.Query.parts, carryOut_contains]
          rfl
  | size => rfl

/-! ## One access -/

namespace Errand

/-- What an access makes of an errand and the store. -/
inductive Step : Errand → Store → Errand → Store → Prop where
  | count (p : Part) (ps : List Part) (findings : List Finding) (s : Store) :
      Step ⟨p :: ps, .fresh, findings⟩ s ⟨p :: ps, .counted, findings⟩ (p.count s)
  | touch (p : Part) (ps : List Part) (findings : List Finding) (s : Store) :
      Step ⟨p :: ps, .counted, findings⟩ s ⟨p :: ps, .touched (p.touch s).1, findings⟩
        (p.touch s).2
  | settle (p : Part) (ps : List Part) (found : Finding) (findings : List Finding) (s : Store) :
      Step ⟨p :: ps, .touched found, findings⟩ s ⟨ps, .fresh, findings ++ [found]⟩
        (p.settle found s)

theorem step?_step {e e' : Errand} (h : e.step? s = some (e', s')) : e.Step s e' s' := by
  obtain ⟨ahead, stage, findings⟩ := e
  cases ahead with
  | nil => cases h
  | cons p ps =>
      cases stage <;> cases h
      · exact .count p ps findings s
      · exact .touch p ps findings s
      · exact .settle p ps _ findings s

/-- An errand goes on until no part is ahead. -/
theorem step?_eq_none {e : Errand} : e.step? s = none ↔ e.ahead = [] := by
  obtain ⟨ahead, stage, findings⟩ := e
  cases ahead with
  | nil => simp [step?]
  | cons p ps => cases stage <;> simp [step?]

/-- How many accesses an errand has before it. -/
def effort (e : Errand) : Nat :=
  match e.ahead, e.stage with
  | [], _ => 0
  | _ :: ps, .fresh => 3 * ps.length + 3
  | _ :: ps, .counted => 3 * ps.length + 2
  | _ :: ps, .touched _ => 3 * ps.length + 1

theorem effort_fresh (ps : List Part) (findings : List Finding) :
    (⟨ps, .fresh, findings⟩ : Errand).effort = 3 * ps.length := by
  cases ps <;> simp [effort, Nat.mul_add]

theorem Step.effort {e e' : Errand} (h : e.Step s e' s') : e'.effort + 1 = e.effort := by
  cases h with
  | count | touch => simp [Errand.effort]
  | settle p ps => rw [effort_fresh, Errand.effort]

theorem Step.ahead {e e' : Errand} (h : e.Step s e' s') : e'.ahead <:+ e.ahead := by
  cases h with
  | count | touch => exact List.suffix_rfl
  | settle p ps => exact List.suffix_cons p ps

/-- The parts that have not been at the table of their key. -/
def untouched (e : Errand) : List Part :=
  match e.stage, e.ahead with
  | .touched _, _ :: ps => ps
  | _, ps => ps

/-- What was found by those that have. -/
def found (e : Errand) : List Finding :=
  match e.stage, e.ahead with
  | .touched found, _ :: _ => e.findings ++ [found]
  | _, _ => e.findings

theorem untouched_of_done {e : Errand} (h : e.ahead = []) : e.untouched = [] := by
  unfold untouched
  rw [h]
  split
  · contradiction
  · rfl

theorem found_of_done {e : Errand} (h : e.ahead = []) : e.found = e.findings := by
  unfold found
  rw [h]
  split
  · contradiction
  · rfl

end Errand

/-! ## Counters -/

/-- A change that only moves counters, and always by the same. -/
def Moves (f : Store → Store) : Prop :=
  ∃ keys gets sets dels : UInt64, ∀ s, f s =
    { s with keys := s.keys + keys, gets := s.gets + gets, sets := s.sets + sets,
             dels := s.dels + dels }

namespace Moves

variable {f f' : Store → Store}

protected theorem id : Moves id := ⟨0, 0, 0, 0, by simp⟩

theorem comp (h : Moves f) (h' : Moves f') : Moves (f ∘ f') := by
  obtain ⟨keys, gets, sets, dels, hf⟩ := h
  obtain ⟨keys', gets', sets', dels', hf'⟩ := h'
  refine ⟨keys' + keys, gets' + gets, sets' + sets, dels' + dels, fun s => ?_⟩
  simp only [Function.comp_apply, hf, hf', UInt64.add_assoc]

theorem comm (h : Moves f) (h' : Moves f') (s : Store) : f (f' s) = f' (f s) := by
  obtain ⟨keys, gets, sets, dels, hf⟩ := h
  obtain ⟨keys', gets', sets', dels', hf'⟩ := h'
  have hswap : ∀ a b c : UInt64, a + b + c = a + c + b := by
    intro a b c
    rw [UInt64.add_assoc, UInt64.add_comm b, ← UInt64.add_assoc]
  rw [hf, hf', hf', hf, hswap s.keys, hswap s.gets, hswap s.sets, hswap s.dels]

theorem foldr {α : Type} {change : α → Store → Store} (h : ∀ a, Moves (change a)) (l : List α) :
    Moves fun s => l.foldr change s := by
  induction l with
  | nil => exact Moves.id
  | cons a l ih => exact (h a).comp ih

theorem count (p : Part) : Moves p.count := by
  cases p with
  | get key => exact ⟨0, 1, 0, 0, by simp [Part.count]⟩
  | set key value => exact ⟨0, 0, 1, 0, by simp [Part.count]⟩
  | delete key => exact ⟨0, 0, 0, 1, by simp [Part.count]⟩
  | contains key => exact Moves.id
  | size => exact Moves.id

theorem settle (p : Part) (found : Finding) : Moves (p.settle found) := by
  unfold Part.settle
  split
  · exact ⟨1, 0, 0, 0, by simp⟩
  · exact ⟨-1, 0, 0, 0, by simp [UInt64.sub_eq_add_neg]⟩
  · exact Moves.id

/-- Tables do not care for counters. -/
theorem touch (h : Moves f) (p : Part) (s : Store) :
    (p.touch (f s)).2 = f (p.touch s).2 ∧ (p ≠ .size → (p.touch (f s)).1 = (p.touch s).1) := by
  obtain ⟨keys, gets, sets, dels, hf⟩ := h
  rw [hf, hf]
  cases p with
  | size => exact ⟨rfl, fun hne => absurd rfl hne⟩
  | _ => exact ⟨rfl, fun _ => rfl⟩

/-- What counters stand at makes no difference to what a part does. -/
theorem perform (h : Moves f) (p : Part) (s : Store) :
    (p.perform (f s)).2 = f (p.perform s).2 := by
  obtain ⟨hstore, hfound⟩ := h.touch p (p.count s)
  by_cases hp : p = .size
  · subst hp
    rfl
  · simp only [Part.perform]
    rw [(count p).comm h, hstore, hfound hp, (settle p _).comm h]

end Moves

/-! ## Errands at one store -/

/-- What is still to be counted of the part that an errand is at, once its table has been
touched. -/
def Errand.owed (e : Errand) (s : Store) : Store :=
  match e.stage, e.ahead with
  | .touched found, p :: _ => p.settle found s
  | _, _ => s

/-- What has been counted of the part that an errand is at, before its table is touched. -/
def Errand.early (e : Errand) (s : Store) : Store :=
  match e.stage, e.ahead with
  | .counted, p :: _ => p.count s
  | _, _ => s

theorem Errand.moves_owed (e : Errand) : Moves e.owed := by
  unfold Errand.owed
  split
  · exact .settle _ _
  · exact .id

theorem Errand.moves_early (e : Errand) : Moves e.early := by
  unfold Errand.early
  split
  · exact .count _
  · exact .id

/-- Whether a part is to bind a key. -/
def Part.binds : Part → Bool
  | .set _ _ => true
  | _ => false

/-- Whether a part is to unbind a key. -/
def Part.unbinds : Part → Bool
  | .delete _ => true
  | _ => false

/-- Whether an errand is at a part that has bound a key, and the key is still to be counted. -/
def Errand.gains (e : Errand) : Bool :=
  match e.stage, e.ahead with
  | .touched (.value none), .set _ _ :: _ => true
  | _, _ => false

/-- Whether an errand is at a part that has unbound a key, and the key is still counted. -/
def Errand.loses (e : Errand) : Bool :=
  match e.stage, e.ahead with
  | .touched (.flag true), .delete _ :: _ => true
  | _, _ => false

theorem Errand.any_binds {e : Errand} (h : e.gains = true) : e.ahead.any Part.binds = true := by
  unfold Errand.gains at h
  split at h
  · rename_i hahead
    rw [hahead]
    rfl
  · cases h

theorem Errand.any_unbinds {e : Errand} (h : e.loses = true) :
    e.ahead.any Part.unbinds = true := by
  unfold Errand.loses at h
  split at h
  · rename_i hahead
    rw [hahead]
    rfl
  · cases h

theorem Errand.keys_owed (e : Errand) (s : Store) :
    (e.owed s).keys + UInt64.ofNat e.loses.toNat = s.keys + UInt64.ofNat e.gains.toNat := by
  obtain ⟨ahead, stage, findings⟩ := e
  cases stage with
  | touched found =>
      cases ahead with
      | nil => cases found <;> simp [owed, gains, loses]
      | cons p ps =>
          -- only a key that has come or gone is owed
          cases p <;> rcases found with (_ | _) | (_ | _) | _ <;>
            simp [owed, gains, loses, Part.settle]
  | _ => rfl

/-- The count of the keys falls short by those that are still to be counted, and exceeds by those
that are still counted. -/
theorem keys_owed (errands : List Errand) (s : Store) :
    (errands.foldr Errand.owed s).keys + UInt64.ofNat (errands.countP Errand.loses) =
      s.keys + UInt64.ofNat (errands.countP Errand.gains) := by
  induction errands with
  | nil => rfl
  | cons e errands ih =>
      have hfirst := e.keys_owed (errands.foldr Errand.owed s)
      have hcount : ∀ q : Errand → Bool,
          (e :: errands).countP q = errands.countP q + (q e).toNat := by
        intro q
        rw [List.countP_cons]
        cases q e <;> rfl
      rw [List.foldr_cons, hcount, hcount, UInt64.ofNat_add, UInt64.ofNat_add]
      grind

theorem keys_early (errands : List Errand) (s : Store) :
    (errands.foldr Errand.early s).keys = s.keys := by
  induction errands with
  | nil => rfl
  | cons e errands ih =>
      rw [List.foldr_cons, ← ih]
      unfold Errand.early
      split
      · rename_i p _ _ _
        cases p <;> rfl
      · rfl

/-- What is found of a part while others are under way, beside what it would be at one go: the same,
but for a size, which may fall short by up to so many keys and exceed by up to so many. -/
inductive Finding.Near (short beyond : Nat) : Finding → Finding → Prop where
  | same (found : Finding) : Near short beyond found found
  | size {n m : UInt64} {missing extra : Nat} : missing ≤ short → extra ≤ beyond →
      m + UInt64.ofNat missing = n + UInt64.ofNat extra → Near short beyond (.count n) (.count m)

theorem Finding.Near.mono {short beyond short' beyond' : Nat} {f f' : Finding}
    (h : Finding.Near short beyond f f') (hshort : short ≤ short') (hbeyond : beyond ≤ beyond') :
    Finding.Near short' beyond' f f' := by
  cases h with
  | same => exact .same _
  | size hmissing hextra hcount =>
      exact .size (Nat.le_trans hmissing hshort) (Nat.le_trans hextra hbeyond) hcount

/-- Errands have made `s'` of a store that would be `s` if every part that has been at its table
were done, and no other were begun. -/
def Tracks (errands : List Errand) (s s' : Store) : Prop :=
  errands.foldr Errand.owed s' = errands.foldr Errand.early s

namespace Tracks

variable {errands : List Errand} {e e' : Errand} {s'' : Store}

theorem perm {errands' : List Errand} (hperm : errands.Perm errands')
    (h : Tracks errands s s') : Tracks errands' s s' := by
  have howed : LeftCommutative Errand.owed :=
    ⟨fun a b s => a.moves_owed.comm b.moves_owed s⟩
  have hearly : LeftCommutative Errand.early :=
    ⟨fun a b s => a.moves_early.comm b.moves_early s⟩
  unfold Tracks
  rw [← hperm.foldr_eq, ← hperm.foldr_eq]
  exact h

/-- What a part finds depends on what has been counted for a size only. -/
theorem near (h : Tracks errands s s') (p : Part) :
    Finding.Near (errands.countP Errand.gains) (errands.countP Errand.loses) (p.perform s).1
      (p.touch s').1 := by
  have howed : Moves fun s => errands.foldr Errand.owed s := .foldr Errand.moves_owed errands
  have hearly : Moves fun s => errands.foldr Errand.early s := .foldr Errand.moves_early errands
  have hsame : errands.foldr Errand.owed s' = errands.foldr Errand.early s := h
  by_cases hp : p = .size
  · subst hp
    refine .size (Nat.le_refl _) (Nat.le_refl _) ?_
    change s'.keys + _ = s.keys + _
    rw [← keys_owed, hsame, keys_early]
  · have hfound : (p.touch s').1 = (p.perform s).1 := by
      have hcounted := ((Moves.count p).touch p s).2 hp
      have hleft := (howed.touch p s').2 hp
      have hright := (hearly.touch p s).2 hp
      rw [hsame, hright] at hleft
      exact hleft.symm.trans hcounted.symm
    rw [hfound]
    exact .same _

/-- **One access keeps errands in step with parts that are done at one go**: it is the turn of a
part when it is at its table, and until then nothing is done. -/
theorem step (h : Tracks (e :: errands) s s') (hstep : e.Step s' e' s'') :
    (e'.untouched = e.untouched ∧ e'.found = e.found ∧ Tracks (e' :: errands) s s'') ∨
      ∃ p found, e.untouched = p :: e'.untouched ∧ e'.found = e.found ++ [found] ∧
        Finding.Near ((e :: errands).countP Errand.gains) ((e :: errands).countP Errand.loses)
          (p.perform s).1 found ∧ Tracks (e' :: errands) (p.perform s).2 s'' := by
  have howed : Moves fun s => errands.foldr Errand.owed s := .foldr Errand.moves_owed errands
  have hearly : Moves fun s => errands.foldr Errand.early s := .foldr Errand.moves_early errands
  cases hstep with
  | count p ps findings =>
      refine .inl ⟨rfl, rfl, ?_⟩
      change errands.foldr Errand.owed (p.count s') = p.count (errands.foldr Errand.early s)
      rw [howed.comm (.count p)]
      exact congrArg p.count h
  | touch p ps findings =>
      refine .inr ⟨p, _, rfl, rfl, h.near p, ?_⟩
      have hbefore : errands.foldr Errand.owed s' = p.count (errands.foldr Errand.early s) := h
      obtain ⟨hstore, hfound⟩ := howed.touch p s'
      change p.settle (p.touch s').1 (errands.foldr Errand.owed (p.touch s').2) =
        errands.foldr Errand.early (p.perform s).2
      rw [← hstore, ← hearly.perform, hbefore]
      by_cases hp : p = .size
      · subst hp
        rfl
      · rw [← hfound hp, hbefore]
        rfl
  | settle p ps found findings =>
      refine .inl ⟨rfl, rfl, ?_⟩
      change errands.foldr Errand.owed (p.settle found s') = errands.foldr Errand.early s
      rw [howed.comm (.settle p found)]
      exact h

/-- An errand with no part ahead makes no difference. -/
theorem cons_done (hdone : e.ahead = []) : Tracks (e :: errands) s s' ↔ Tracks errands s s' := by
  obtain ⟨ahead, stage, findings⟩ := e
  obtain rfl : ahead = [] := hdone
  cases stage <;> exact Iff.rfl

theorem eq_of_done (h : Tracks errands s s') (hdone : ∀ e ∈ errands, e.ahead = []) : s' = s := by
  induction errands with
  | nil => exact h
  | cons e errands ih =>
      rw [List.forall_mem_cons] at hdone
      exact ih ((cons_done hdone.1).mp h) hdone.2

end Tracks

end RespGateway.Store
