import Mathlib.Logic.Relation
import RespGateway.Proofs.OneTable
import RespGateway.Proofs.Touches

/-!
# Touches in another order

Two parts are apart if they are about different keys, or if both only read. Which of the two
comes first makes no difference to what they find and to what the store holds after them
(`perform_comm`). So touches may be put in another order, neighbour by neighbour, as long as
those that change places are apart: all find the same (`Reordered.carryOut`).
-/

namespace RespGateway

namespace Store

variable {s s' s'' : Store} {p q : Part}

/-! ## Stores that hold the same -/

/-- What a store counts. -/
def counters (s : Store) : UInt64 × UInt64 × UInt64 × UInt64 := (s.keys, s.gets, s.sets, s.dels)

/-- Two stores hold the same: every key has the same value, and all counters are the same. -/
structure Same (s s' : Store) : Prop where
  value? : ∀ key, s.value? key = s'.value? key
  counters : s.counters = s'.counters

namespace Same

protected theorem rfl : Same s s := ⟨fun _ => rfl, rfl⟩

theorem trans (h : Same s s') (h' : Same s' s'') : Same s s'' :=
  ⟨fun key => (h.value? key).trans (h'.value? key), h.counters.trans h'.counters⟩

theorem keys (h : Same s s') : s.keys = s'.keys := congrArg Prod.fst h.counters

end Same

theorem Moves.counters {f : Store → Store} (h : Moves f) (hsame : s.counters = s'.counters) :
    (f s).counters = (f s').counters := by
  obtain ⟨keys, gets, sets, dels, hf⟩ := h
  simp only [Store.counters, Prod.mk.injEq] at hsame
  obtain ⟨hkeys, hgets, hsets, hdels⟩ := hsame
  simp only [Store.counters, hf, hkeys, hgets, hsets, hdels]

/-! ## What a part is about -/

/-- The key that a part is about. -/
def Part.key? : Part → Option Bytes
  | .get key | .set key _ | .delete key | .contains key => some key
  | .size => none

/-- Whether a part leaves all keys as they are. -/
def Part.reads (p : Part) : Bool := !p.binds && !p.unbinds

/-- Whether a part sees the same in two stores: the same value of its key, and the same count of the
keys if that is what it asks for. -/
structure Part.SeesSame (p : Part) (s s' : Store) : Prop where
  value? : ∀ key, p.key? = some key → s.value? key = s'.value? key
  keys : p = .size → s.keys = s'.keys

theorem Part.SeesSame.symm (h : p.SeesSame s s') : p.SeesSame s' s :=
  ⟨fun key hkey => (h.value? key hkey).symm, fun hp => (h.keys hp).symm⟩

/-- What a part finds, and what it leaves of its key, depends only on what it sees. -/
theorem perform_of_seesSame (h : p.SeesSame s s') :
    (p.perform s).1 = (p.perform s').1 ∧
      ∀ key, p.key? = some key → (p.perform s).2.value? key = (p.perform s').2.value? key := by
  cases p with
  | get key => exact ⟨congrArg Finding.value (h.value? key rfl), h.value?⟩
  | set key value =>
      rw [perform_set, perform_set]
      refine ⟨congrArg Finding.value (h.value? key rfl), fun k hk => ?_⟩
      cases hk
      rw [value?_set, value?_set, if_pos rfl, if_pos rfl]
  | delete key =>
      rw [perform_delete, perform_delete]
      refine ⟨congrArg (fun v => Finding.flag v.isSome) (h.value? key rfl), fun k hk => ?_⟩
      cases hk
      rw [value?_delete, value?_delete, if_pos rfl, if_pos rfl]
  | contains key =>
      have hvalue := h.value? key rfl
      refine ⟨?_, h.value?⟩
      change Finding.flag (s.value? key).isSome = Finding.flag (s'.value? key).isSome
      rw [hvalue]
  | size => exact ⟨congrArg Finding.count (h.keys rfl), by simp [Part.key?]⟩

/-- A part leaves all other keys as they are, and all keys if it only reads. -/
theorem value?_perform {key : Bytes} (h : p.reads = true ∨ p.key? ≠ some key) (s : Store) :
    (p.perform s).2.value? key = s.value? key := by
  cases p with
  | set k value =>
      obtain hreads | hkey := h
      · cases hreads
      · rw [perform_set, value?_set, if_neg fun heq => hkey (congrArg some heq.symm)]
  | delete k =>
      obtain hreads | hkey := h
      · cases hreads
      · rw [perform_delete, value?_delete, if_neg fun heq => hkey (congrArg some heq.symm)]
  | _ => rfl

theorem keys_perform (h : p.reads = true) (s : Store) : (p.perform s).2.keys = s.keys := by
  cases p with
  | set | delete => cases h
  | _ => rfl

/-- The counters move by what a part is and what it finds. -/
theorem counters_perform (p : Part) (s : Store) :
    (p.perform s).2.counters = (p.settle (p.perform s).1 (p.count s)).counters := by
  have htouch : (p.touch (p.count s)).2.counters = (p.count s).counters := by
    cases p <;> rfl
  exact (Moves.settle p _).counters htouch

/-- Stores that hold the same are the same to all parts. -/
theorem Same.carryOut (h : Same s s') (ps : List Part) :
    (s.carryOut ps).1 = (s'.carryOut ps).1 ∧ Same (s.carryOut ps).2 (s'.carryOut ps).2 := by
  induction ps generalizing s s' with
  | nil => exact ⟨rfl, h⟩
  | cons p ps ih =>
      have hsees : p.SeesSame s s' := ⟨fun key _ => h.value? key, fun _ => h.keys⟩
      obtain ⟨hfound, hkey⟩ := perform_of_seesSame hsees
      have hafter : Same (p.perform s).2 (p.perform s').2 := by
        refine ⟨fun key => ?_, ?_⟩
        · by_cases hp : p.key? = some key
          · exact hkey key hp
          · rw [value?_perform (.inr hp), value?_perform (.inr hp), h.value?]
        · rw [counters_perform, counters_perform, hfound]
          exact (Moves.settle p _).counters ((Moves.count p).counters h.counters)
      obtain ⟨hrest, hlast⟩ := ih hafter
      simp only [Store.carryOut]
      exact ⟨by rw [hfound, hrest], hlast⟩

/-- **Stores that hold the same answer alike.** -/
theorem Same.answer (h : Same s s') (query : Cache.Query) :
    (s.answer query).1 = (s'.answer query).1 ∧ Same (s.answer query).2 (s'.answer query).2 := by
  rw [answer_eq, answer_eq]
  obtain ⟨hfound, hafter⟩ := h.carryOut query.parts
  exact ⟨congrArg query.conclude hfound, hafter⟩

/-! ## Parts that are apart -/

/-- Two parts both only read, or each is about a key of its own. -/
def Part.Apart (p q : Part) : Prop :=
  p.reads = true ∧ q.reads = true ∨ ∃ a b, p.key? = some a ∧ q.key? = some b ∧ a ≠ b

theorem Part.Apart.symm (h : p.Apart q) : q.Apart p := by
  rcases h with ⟨hp, hq⟩ | ⟨a, b, hp, hq, hab⟩
  · exact .inl ⟨hq, hp⟩
  · exact .inr ⟨b, a, hq, hp, Ne.symm hab⟩

/-- A part does not see that another has been done from which it is apart. -/
theorem Part.Apart.seesSame (h : p.Apart q) (s : Store) : q.SeesSame (p.perform s).2 s := by
  rcases h with ⟨hp, -⟩ | ⟨a, b, hp, hq, hab⟩
  · exact ⟨fun key _ => value?_perform (.inl hp) s, fun _ => keys_perform hp s⟩
  · refine ⟨fun key hkey => value?_perform (.inr fun heq => ?_) s, fun hsize => ?_⟩
    · rw [hp] at heq
      rw [hq] at hkey
      exact hab ((Option.some.inj heq).trans (Option.some.inj hkey).symm)
    · rw [hsize] at hq
      cases hq

/-- **Which of two parts that are apart comes first makes no difference**: they find the same, and
what is left behind holds the same. -/
theorem perform_comm (h : p.Apart q) (s : Store) :
    (q.perform (p.perform s).2).1 = (q.perform s).1 ∧
      (p.perform (q.perform s).2).1 = (p.perform s).1 ∧
      Same (q.perform (p.perform s).2).2 (p.perform (q.perform s).2).2 := by
  obtain ⟨hq, hqkey⟩ := perform_of_seesSame (h.seesSame s)
  obtain ⟨hp, hpkey⟩ := perform_of_seesSame (h.symm.seesSame s)
  refine ⟨hq, hp, fun key => ?_, ?_⟩
  · rcases h with ⟨hpreads, hqreads⟩ | ⟨a, b, hpa, hqb, hab⟩
    · rw [value?_perform (.inl hqreads), value?_perform (.inl hpreads),
        value?_perform (.inl hpreads), value?_perform (.inl hqreads)]
    · by_cases hkey : key = b
      · -- the key is that of the second part, and the first leaves it as it is
        have hother : p.key? ≠ some key := by
          rw [hpa, hkey]
          exact fun heq => hab (Option.some.inj heq)
        rw [value?_perform (.inr hother)]
        exact hqkey key (hkey ▸ hqb)
      · have hother : q.key? ≠ some key := by
          rw [hqb]
          exact fun heq => hkey (Option.some.inj heq).symm
        rw [value?_perform (.inr hother)]
        by_cases hfirst : p.key? = some key
        · exact (hpkey key hfirst).symm
        · rw [value?_perform (.inr hfirst), value?_perform (.inr hfirst),
            value?_perform (.inr hother)]
  · -- the counters are moved by the same, in another order
    have hswap :
        (q.settle (q.perform s).1 (q.count (p.settle (p.perform s).1 (p.count s)))).counters =
          (p.settle (p.perform s).1 (p.count (q.settle (q.perform s).1 (q.count s)))).counters := by
      rw [(Moves.count q).comm (.settle p _), (Moves.settle q _).comm (.settle p _),
        (Moves.count q).comm (.count p), (Moves.settle q _).comm (.count p)]
    have hafter : ∀ (a b : Part) (found : Finding),
        (a.settle found (a.count (b.perform s).2)).counters =
          (a.settle found (a.count (b.settle (b.perform s).1 (b.count s)))).counters :=
      fun a b found => (Moves.settle a found).counters
        ((Moves.count a).counters (counters_perform b s))
    rw [counters_perform, counters_perform, hq, hp, hafter, hafter, hswap]

end Store

namespace Burst

open Store (Part Finding Same)

variable {s s' : Store} {c d : Touch} {touches touches' touches'' : List Touch}

theorem mem_own {t : Taken} : c ∈ own t touches ↔ c ∈ touches ∧ c.taken = t := by
  simp [own]

theorem own_filter {t : Taken} {p : Touch → Bool} (h : ∀ d, d.taken = t → p d = true) :
    own t (touches.filter p) = own t touches := by
  rw [own, own, List.filter_filter]
  refine List.filter_congr fun d _ => ?_
  by_cases hd : d.taken = t
  · simp [hd, h d hd]
  · simp [hd]

/-! ## Neighbours that change places -/

/-- Two neighbours that are apart change places. -/
inductive Swap : List Touch → List Touch → Prop where
  | here (c d : Touch) (behind : List Touch) : c.part.Apart d.part →
      Swap (c :: d :: behind) (d :: c :: behind)
  | behind (c : Touch) {touches touches' : List Touch} : Swap touches touches' →
      Swap (c :: touches) (c :: touches')

/-- Touches in another order, in which all that are not apart stand as they did. -/
def Reordered : List Touch → List Touch → Prop := Relation.ReflTransGen Swap

/-- All find, one after another, what they have found. -/
theorem carryOut_cons_iff :
    s.carryOut ((c :: touches).map Touch.part) = ((c :: touches).map Touch.finding, s') ↔
      (c.part.perform s).1 = c.finding ∧
        (c.part.perform s).2.carryOut (touches.map Touch.part) =
          (touches.map Touch.finding, s') := by
  simp only [List.map_cons, Store.carryOut, List.cons.injEq, Prod.ext_iff, and_assoc]

/-- Where neighbours that are apart change places, all find the same. -/
theorem Swap.carryOut (h : Swap touches touches')
    (hall : s.carryOut (touches.map Touch.part) = (touches.map Touch.finding, s')) :
    ∃ s'', s.carryOut (touches'.map Touch.part) = (touches'.map Touch.finding, s'') ∧
      Same s'' s' := by
  induction h generalizing s with
  | here c d behind hapart =>
      rw [carryOut_cons_iff, carryOut_cons_iff] at hall
      obtain ⟨hc, hd, hrest⟩ := hall
      obtain ⟨hsecond, hfirst, hsame⟩ := Store.perform_comm hapart.symm s
      obtain ⟨hfound, hafter⟩ := hsame.carryOut (behind.map Touch.part)
      rw [hrest] at hfound hafter
      refine ⟨_, ?_, hafter⟩
      rw [carryOut_cons_iff, carryOut_cons_iff]
      exact ⟨hfirst.symm.trans hd, hsecond.trans hc, Prod.ext hfound rfl⟩
  | behind c _ ih =>
      rw [carryOut_cons_iff] at hall
      obtain ⟨s'', hrest, hsame⟩ := ih hall.2
      exact ⟨s'', carryOut_cons_iff.mpr ⟨hall.1, hrest⟩, hsame⟩

namespace Reordered

/-- **In another order all find the same, and what is left behind holds the same.** -/
theorem carryOut (h : Reordered touches touches')
    (hall : s.carryOut (touches.map Touch.part) = (touches.map Touch.finding, s')) :
    ∃ s'', s.carryOut (touches'.map Touch.part) = (touches'.map Touch.finding, s'') ∧
      Same s'' s' := by
  induction h with
  | refl => exact ⟨s', hall, .rfl⟩
  | tail _ hswap ih =>
      obtain ⟨s₁, hone, hsame⟩ := ih
      obtain ⟨s₂, hnext, hsame'⟩ := hswap.carryOut hone
      exact ⟨s₂, hnext, hsame'.trans hsame⟩

theorem trans (h : Reordered touches touches') (h' : Reordered touches' touches'') :
    Reordered touches touches'' := Relation.ReflTransGen.trans h h'

theorem behind (front : List Touch) (h : Reordered touches touches') :
    Reordered (front ++ touches) (front ++ touches') := by
  induction front with
  | nil => exact h
  | cons c front ih =>
      exact Relation.ReflTransGen.lift (c :: ·) (fun _ _ hswap => Swap.behind c hswap) _ _ ih

/-- A touch goes back behind others that are all apart from it. -/
theorem back (hapart : ∀ d ∈ touches, c.part.Apart d.part) (behind : List Touch) :
    Reordered (c :: (touches ++ behind)) (touches ++ c :: behind) := by
  induction touches with
  | nil => exact .refl
  | cons d touches ih =>
      rw [List.forall_mem_cons] at hapart
      exact .head (.here c d _ hapart.1) ((ih hapart.2).behind [d])

/-- Touches that are apart from all others go to the front. -/
theorem partition {p : Touch → Bool}
    (hapart : ∀ c ∈ touches, ∀ d ∈ touches, p c = true → p d = false → d.part.Apart c.part) :
    Reordered touches (touches.filter p ++ touches.filter (!p ·)) := by
  induction touches with
  | nil => exact .refl
  | cons c touches ih =>
      have hrest := ih fun a ha d hd => hapart a (.tail _ ha) d (.tail _ hd)
      cases hp : p c with
      | true =>
          simp only [List.filter_cons, hp, if_true, Bool.not_true, Bool.false_eq_true, if_false]
          exact hrest.behind [c]
      | false =>
          simp only [List.filter_cons, hp, if_true, Bool.not_false, Bool.false_eq_true, if_false]
          have hback : ∀ d ∈ touches.filter p, c.part.Apart d.part := by
            intro d hd
            obtain ⟨hd, hpd⟩ := List.mem_filter.mp hd
            exact hapart d (.tail _ hd) c (.head _) hpd hp
          exact (hrest.behind [c]).trans (back hback _)

/-- All that is done for commands goes to the front, command by command, if it is apart from what is
done for any other. -/
theorem gather {commands : List Taken} (hnodup : commands.Nodup) :
    ∀ {touches : List Touch}, (∀ c ∈ touches, ∀ d ∈ touches, c.taken ∈ commands →
        d.taken ≠ c.taken → d.part.Apart c.part) →
      Reordered touches ((commands.flatMap fun t => own t touches) ++
        touches.filter (·.taken ∉ commands)) := by
  induction commands with
  | nil =>
      intro touches _
      rw [List.flatMap_nil, List.nil_append, List.filter_eq_self.mpr (by simp)]
      exact .refl
  | cons t commands ih =>
      intro touches hapart
      rw [List.nodup_cons] at hnodup
      let rest := touches.filter fun d => !decide (d.taken = t)
      have hfirst : Reordered touches (own t touches ++ rest) := by
        refine partition fun c hc d hd hct hdt => ?_
        obtain rfl : c.taken = t := by simpa using hct
        exact hapart c hc d hd List.mem_cons_self (by simpa using hdt)
      have hothers : Reordered rest ((commands.flatMap fun t' => own t' rest) ++
          rest.filter (·.taken ∉ commands)) := ih hnodup.2 fun c hc d hd hct hdt =>
        hapart c (List.mem_filter.mp hc).1 d (List.mem_filter.mp hd).1 (.tail _ hct) hdt
      -- nothing of the others has gone to the front with the first
      have hown : commands.flatMap (fun t' => own t' rest) =
          commands.flatMap fun t' => own t' touches := by
        refine List.flatMap_congr fun t' ht' => own_filter fun d hd => ?_
        have hne : t' ≠ t := fun heq => hnodup.1 (heq ▸ ht')
        simp [hd, hne]
      have hrest : rest.filter (·.taken ∉ commands) = touches.filter (·.taken ∉ t :: commands) := by
        rw [List.filter_filter]
        refine List.filter_congr fun d _ => ?_
        by_cases hd : d.taken = t <;> simp [hd]
      rw [hown, hrest] at hothers
      rw [List.flatMap_cons, List.append_assoc]
      exact hfirst.trans (hothers.behind _)

end Reordered

/-! ## Orders of whole commands -/

variable {g : Gateway} {ledger : List Taken}

theorem eq_singleton {α : Type} {l : List α} {a : α} (h : l.length ≤ 1) (ha : a ∈ l) :
    l = [a] := by
  cases l with
  | nil => cases ha
  | cons b l =>
      obtain rfl : l = [] := by simpa using h
      rw [List.mem_singleton.mp ha]

/-- Where each command has one touch at most, no command is touched twice. -/
theorem nodup_taken (hone : ∀ c ∈ touches, own c.taken touches = [c]) :
    (touches.map Touch.taken).Nodup := by
  refine List.nodup_iff_count_le_one.mpr fun t => ?_
  have hcount : (touches.map Touch.taken).count t = (own t touches).length := by
    rw [List.count, List.countP_map, own, ← List.countP_eq_length_filter]
    exact List.countP_congr fun c _ => by simp
  by_cases ht : t ∈ touches.map Touch.taken
  · obtain ⟨c, hc, rfl⟩ := List.mem_map.mp ht
    rw [hcount, hone c hc, List.length_singleton]
  · rw [List.count_eq_zero.mpr ht]
    omega

/-- What is done for commands with one part at most stands together. -/
theorem exists_order_of_single (hnodup : ledger.Nodup)
    (hown : ∀ t ∈ ledger, (own t touches).map Touch.part = g.parts t)
    (hothers : ∀ c ∈ touches, c.taken ∈ ledger)
    (hsingle : ∀ t ∈ ledger, (g.parts t).length ≤ 1) :
    ∃ order : List Taken, order.Perm (ledger.filter g.takesEffect) ∧
      touches = order.flatMap fun t => own t touches := by
  have hlength : ∀ t ∈ ledger, (own t touches).length ≤ 1 := by
    intro t ht
    have hparts := hsingle t ht
    rwa [← hown t ht, List.length_map] at hparts
  have hone : ∀ c ∈ touches, own c.taken touches = [c] := fun c hc =>
    eq_singleton (hlength _ (hothers c hc)) (mem_own.mpr ⟨hc, rfl⟩)
  -- first those for which nothing is done, then all others as they come
  let idle := ledger.filter fun t => g.takesEffect t && (own t touches).isEmpty
  have hidle : ∀ t, t ∈ idle ↔ t ∈ ledger ∧ g.takesEffect t = true ∧ own t touches = [] := by
    intro t
    simp [idle]
  refine ⟨idle ++ touches.map Touch.taken, ?_, ?_⟩
  · refine (List.perm_ext_iff_of_nodup ?_ (hnodup.filter _)).mpr fun t => ?_
    · refine List.nodup_append.mpr ⟨hnodup.filter _, nodup_taken hone, ?_⟩
      intro t ht t' ht' heq
      obtain ⟨c, hc, rfl⟩ := List.mem_map.mp ht'
      have hnone := ((hidle t).mp ht).2.2
      rw [heq, hone c hc] at hnone
      cases hnone
    · rw [List.mem_append, hidle, List.mem_map, List.mem_filter]
      constructor
      · rintro (⟨ht, heffect, -⟩ | ⟨c, hc, rfl⟩)
        · exact ⟨ht, heffect⟩
        · refine ⟨hothers c hc, ?_⟩
          by_contra hstill
          have hparts := hown _ (hothers c hc)
          rw [parts_of_still (Bool.eq_false_iff.mpr hstill), hone c hc] at hparts
          cases hparts
      · rintro ⟨ht, heffect⟩
        cases hmine : own t touches with
        | nil => exact .inl ⟨ht, heffect, rfl⟩
        | cons c rest =>
            have hc : c ∈ own t touches := hmine ▸ List.mem_cons_self
            exact .inr ⟨c, (mem_own.mp hc).1, (mem_own.mp hc).2⟩
  · rw [List.flatMap_append]
    have hnothing : idle.flatMap (fun t => own t touches) = [] := by
      rw [List.flatMap_eq_nil_iff]
      exact fun t ht => ((hidle t).mp ht).2.2
    rw [hnothing, List.nil_append, List.flatMap_map, List.flatMap_congr hone]
    simp

/-- Where each command with several parts is apart from all others, what is done can be put in an
order of whole commands. -/
theorem exists_order (hnodup : ledger.Nodup)
    (hown : ∀ t ∈ ledger, (own t touches).map Touch.part = g.parts t)
    (hothers : ∀ c ∈ touches, c.taken ∈ ledger)
    (hapart : ∀ t ∈ ledger, ∀ t' ∈ ledger, t' ≠ t → 1 < (g.parts t).length →
      ∀ p ∈ g.parts t, ∀ q ∈ g.parts t', q.Apart p) :
    ∃ order : List Taken, order.Perm (ledger.filter g.takesEffect) ∧
      Reordered touches (order.flatMap fun t => own t touches) := by
  have hpart : ∀ c ∈ touches, c.part ∈ g.parts c.taken := by
    intro c hc
    rw [← hown c.taken (hothers c hc)]
    exact List.mem_map_of_mem (mem_own.mpr ⟨hc, rfl⟩)
  -- first those with several parts, then all others as they come
  let many := ledger.filter fun t => 1 < (g.parts t).length
  let few := ledger.filter fun t => !decide (1 < (g.parts t).length)
  let rest := touches.filter (·.taken ∉ many)
  have hgather : Reordered touches ((many.flatMap fun t => own t touches) ++ rest) := by
    refine .gather (hnodup.filter _) fun c hc d hd hmany hne => ?_
    obtain ⟨hledger, hseveral⟩ := List.mem_filter.mp hmany
    exact hapart c.taken hledger d.taken (hothers d hd) hne (of_decide_eq_true hseveral) c.part
      (hpart c hc) d.part (hpart d hd)
  have hsame : ∀ t ∈ few, own t rest = own t touches := by
    intro t ht
    have hmany : t ∉ many := by
      intro hmany
      have hone := (List.mem_filter.mp ht).2
      rw [(List.mem_filter.mp hmany).2] at hone
      cases hone
    exact own_filter fun d hd => by simp [hd, hmany]
  have hrest : ∀ c ∈ rest, c.taken ∈ few := by
    intro c hc
    obtain ⟨hc, hmany⟩ := List.mem_filter.mp hc
    have hledger := hothers c hc
    simpa [many, few, hledger] using hmany
  obtain ⟨order, hperm, htouches⟩ := exists_order_of_single (g := g) (hnodup.filter _)
    (fun t ht => by rw [hsame t ht, hown t (List.mem_filter.mp ht).1]) hrest
    (fun t ht => by simpa using (List.mem_filter.mp ht).2)
  refine ⟨many ++ order, ?_, ?_⟩
  · -- a command with parts takes effect
    have hmany : (ledger.filter g.takesEffect).filter (fun t => 1 < (g.parts t).length) = many := by
      rw [List.filter_filter]
      refine List.filter_congr fun t _ => ?_
      cases heffect : g.takesEffect t with
      | true => simp
      | false => simp [parts_of_still heffect]
    have hall := List.filter_append_perm (fun t => decide (1 < (g.parts t).length))
      (ledger.filter g.takesEffect)
    rw [hmany] at hall
    refine List.Perm.trans (List.Perm.append_left many ?_) hall
    rw [List.filter_comm]
    exact hperm
  · have horder : order.flatMap (fun t => own t rest) = order.flatMap fun t => own t touches :=
      List.flatMap_congr fun t ht =>
        hsame t (List.mem_filter.mp (hperm.mem_iff.mp ht)).1
    rw [List.flatMap_append, ← horder, ← htouches]
    exact hgather

end Burst

end RespGateway
