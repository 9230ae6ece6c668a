import Mathlib.Data.List.Permutation
import RespGateway.Proofs.Progress
import RespGateway.Proofs.Reordering

/-!
# Commands at once are as if one after another, key by key

All that the store does for commands at once is in one order, touch by touch. In that order,
one part after another from the store at the start, every part finds what it found at once,
and the same store is left behind, counters included; only the count of the keys, which is
read without a lock, may be off meanwhile. Where the order can be changed into one of whole
commands without that touches of one key which do not only read pass one another, whole
commands in that order get the same replies. There is such an order if every command with
several keys is apart from all others.

Without that a command with several keys does not always have a place of its own, and `DBSIZE`
does not always find what a store at rest could hold (`not_linearizable`).
-/

namespace RespGateway

open Store (Part Finding Errand Tracks)

/-- The store answers commands one after another. -/
def Store.replyAll (s : Store) : List Exchange → List (Option Reply) × Store
  | [] => ([], s)
  | x :: xs =>
    let (r, s) := s.reply? x
    let (rs, s) := s.replyAll xs
    (r :: rs, s)

namespace Burst

variable {g : Gateway} {xs : List Exchange} {work : Gateway.State} {o : Outbox} {t : Taken}
  {ledger : List Taken} {done : List End} {touches : List Touch} {ideal s s' : Store} {b : Burst}

/-! ## Whole commands -/

theorem near_exact {short beyond : Nat} {p : Part} {f : Finding}
    (h : Finding.Near short beyond (p.perform s).1 f) (hp : p ≠ .size ∨ short = 0 ∧ beyond = 0) :
    (p.perform s).1 = f := by
  generalize hfound : (p.perform s).1 = found at h
  cases h with
  | same => rfl
  | @size n m missing extra hmissing hextra hcount =>
      rcases hp with hp | ⟨rfl, rfl⟩
      · -- only a size finds a count
        cases p with
        | size => exact absurd rfl hp
        | _ => cases hfound
      · obtain rfl : missing = 0 := Nat.le_zero.mp hmissing
        obtain rfl : extra = 0 := Nat.le_zero.mp hextra
        have hsame : m = n := by simpa using hcount
        rw [hsame]

/-- Where there is no size, or no key comes or goes, all is found as it is at one go. -/
theorem History.exact {short beyond : Nat} (h : History short beyond s touches s')
    (hexact : (∀ c ∈ touches, c.part ≠ .size) ∨ short = 0 ∧ beyond = 0) :
    s.carryOut (touches.map Touch.part) = (touches.map Touch.finding, s') := by
  obtain ⟨findings, hstore, hnear⟩ := h
  induction touches generalizing s findings with
  | nil =>
      cases hnear
      exact hstore
  | cons c touches ih =>
      simp only [List.map_cons, Store.carryOut] at hstore hnear ⊢
      cases hstore
      cases hnear with
      | cons hfirst hrest =>
          have hone := near_exact hfirst (hexact.imp_left fun h => h c List.mem_cons_self)
          have hall := ih (hexact.imp_left fun h => (List.forall_mem_cons.mp h).2) _ rfl hrest
          rw [hone, hall]

theorem query_of_effect (ht : g.takesEffect t = true) : ∃ q, t.exchange.query? = some q := by
  obtain ⟨-, q, -, hq, -⟩ := (takesEffect_iff g t).mp ht
  exact ⟨q, hq⟩

/-- Whole commands one after another do what their parts do. -/
theorem replyAll_of_parts (order : List Taken) :
    ∀ {s s' : Store},
      (∀ t ∈ order, g.takesEffect t = true ∧ (own t touches).map Touch.part = g.parts t) →
      s.carryOut (order.flatMap fun t => (own t touches).map Touch.part) =
        (order.flatMap fun t => (own t touches).map Touch.finding, s') →
      s.replyAll (order.map Taken.exchange) = (order.map (heard touches), s') := by
  induction order with
  | nil =>
      intro s s' _ hstore
      cases hstore
      rfl
  | cons t order ih =>
      intro s s' hall hstore
      rw [List.forall_mem_cons] at hall
      obtain ⟨⟨ht, hparts⟩, hrest⟩ := hall
      obtain ⟨q, hq⟩ := query_of_effect ht
      rw [List.flatMap_cons, List.flatMap_cons, Store.carryOut_append, Prod.mk.injEq] at hstore
      obtain ⟨hfindings, hafter⟩ := hstore
      -- the first findings are those of the first command
      obtain ⟨hfirst, hmore⟩ := List.append_inj hfindings (by
        rw [Store.length_carryOut, List.length_map, List.length_map])
      have hreply : s.reply? t.exchange = (heard touches t, (s.carryOut (g.parts t)).2) := by
        unfold Store.reply? heard
        rw [hq, ← hfirst, hparts, parts_of_effect ht hq]
        simp only [Store.answer_eq, Option.map_some]
      rw [hparts] at hmore hafter
      rw [List.map_cons, Store.replyAll, hreply]
      simp only
      rw [ih hrest (Prod.ext hmore hafter)]
      rfl

/-! ## The end of a burst -/

/-- All commands of a burst have ended, each once, and what the store did for them is in one order:
`ledger` is the order in which they were taken on, `done` that in which they ended, and `touches`
that in which the store was touched. -/
structure Linearized (g : Gateway) (xs : List Exchange) (work : Gateway.State) (o : Outbox)
    (acts : List Act) (b : Burst) (ledger : List Taken) (done : List End) (touches : List Touch) :
    Prop where
  /-- Every command is taken on once, and every command ends once. -/
  started : (ledger.map Taken.exchange).Perm xs
  ended : (done.map End.taken).Perm ledger
  tickets : ledger.map Taken.ticket = List.range' work.tickets xs.length
  calls : b.work.calls = work.calls ++ ledger.flatMap (Taken.calls g)
  /-- With each end its reply is sent. -/
  sent : o.isOpen = true →
    b.outbox = { o with waiting := o.waiting ++ done.map fun d => .reply d.reply }
  told : ∀ d ∈ done, Told g touches d
  givenUp : done.countP End.givenUp = acts.countP Act.givesUp
  /-- For each command the store does its parts in their order, and nothing for one that does not
  take effect. -/
  own : ∀ t ∈ ledger, (own t touches).map Touch.part = g.parts t
  others : ∀ c ∈ touches, c.taken ∈ ledger
  /-- **One part after another finds the same and leaves the same store behind**; a size may be
  short by the commands that bind keys, and over by those that unbind keys. -/
  inOrder : History (ledger.countP (binds g)) (ledger.countP (unbinds g)) work.store touches
    b.work.store
  /-- Where the touches can be put in an order of whole commands, the commands in that order get the
  replies that they got, and what they leave behind holds the same, unless a size is in question. -/
  whole : ∀ order : List Taken, order.Perm (ledger.filter g.takesEffect) →
    Reordered touches (order.flatMap fun t => Burst.own t touches) →
    (∀ t ∈ ledger, .size ∉ g.parts t) ∨
      (∀ t ∈ ledger, binds g t = false ∧ unbinds g t = false) →
    ∃ s, work.store.replyAll (order.map Taken.exchange) = (order.map (heard touches), s) ∧
      s.Same b.work.store
  /-- They can where each command with several parts is apart from all others. -/
  apart : (∀ t ∈ ledger, ∀ t' ∈ ledger, t' ≠ t → 1 < (g.parts t).length →
      ∀ p ∈ g.parts t, ∀ q ∈ g.parts t', q.Apart p) →
    ∃ order : List Taken, order.Perm (ledger.filter g.takesEffect) ∧
      Reordered touches (order.flatMap fun t => Burst.own t touches)
  /-- On a closed session the same happens, but nothing is sent. -/
  closed : ∀ o' : Outbox, o'.isOpen = false →
    (start xs work o').follow? g acts = some { b with outbox := o' }
  length : acts.length ≤ (xs.map Exchange.effort).sum

theorem exists_of_forall₂ {α β : Type} {R : α → β → Prop} {l : List α} {u : List β}
    (h : List.Forall₂ R l u) {a : α} (ha : a ∈ l) : ∃ b ∈ u, R a b := by
  induction h with
  | nil => cases ha
  | @cons a' b l u hfirst _ ih =>
      rcases List.mem_cons.mp ha with rfl | ha
      · exact ⟨b, List.mem_cons_self, hfirst⟩
      · obtain ⟨b', hb', hrest⟩ := ih ha
        exact ⟨b', List.mem_cons_of_mem b hb', hrest⟩

/-- For every command of a burst that is over, the store has done its parts. -/
theorem Progress.own_parts (h : Progress g xs work o ledger [] [] done touches ideal b)
    (hdone : ∀ e ∈ b.errands, e.ahead = []) {t : Taken} (ht : t ∈ ledger) :
    (Burst.own t touches).map Touch.part = g.parts t := by
  have hended : t ∈ done.map End.taken := h.shares.mem_iff.mp ht
  obtain ⟨d, hd, rfl⟩ := List.mem_map.mp hended
  have htold := h.told d hd
  cases d with
  | mk t y lost =>
      cases htold with
      | still heffect hnone hended =>
          rw [hnone, parts_of_still heffect]
          rfl
      | answered heffect hparts => exact hparts
      | givenUp heffect hlimit =>
          -- its errand has gone astray, and has come to its end
          have hlost : t ∈ Burst.lost done :=
            List.mem_map_of_mem (List.mem_filter.mpr ⟨hd, rfl⟩)
          obtain ⟨e, he, hruns⟩ := exists_of_forall₂ h.runs hlost
          exact hruns.parts_of_done (hdone e he)

/-- Where no errand is left, the store is what one part after another makes of it. -/
theorem Progress.linearized (h : Progress g xs work o ledger [] [] done touches ideal b)
    {acts : List Act} (hrun : (start xs work o).follow? g acts = some b) (hwaiting : b.waiting = [])
    (hdone : ∀ e ∈ b.errands, e.ahead = [])
    (hcount : done.countP End.givenUp = acts.countP Act.givesUp) :
    Linearized g xs work o acts b ledger done touches := by
  have hplaces := h.places
  rw [hwaiting, List.nil_append] at hplaces
  have hlength : xs.length = ledger.length := by
    rw [hplaces.length_eq, List.length_map]
  have hstore : b.work.store = ideal := h.tracks.eq_of_done hdone
  have hown : ∀ t ∈ ledger, (Burst.own t touches).map Touch.part = g.parts t :=
    fun t ht => h.own_parts hdone ht
  have hothers : ∀ c ∈ touches, c.taken ∈ ledger :=
    fun c hc => h.shares.mem_iff.mpr (h.touched c hc)
  have horder := h.history
  rw [← hstore] at horder
  exact
    { started := hplaces.symm
      ended := h.shares.symm
      tickets := by
        rw [hlength]
        exact h.tickets
      calls := h.calls
      sent := by
        intro ho
        rw [h.outbox, offered_open ho, List.map_map]
        rfl
      told := h.told
      givenUp := hcount
      own := hown
      others := hothers
      inOrder := horder
      whole := by
        intro order hperm hreordered hexact
        have hfound := horder.exact (hexact.imp ?_ ?_)
        · obtain ⟨s, hwhole, hsame⟩ := hreordered.carryOut hfound
          rw [List.map_flatMap, List.map_flatMap] at hwhole
          refine ⟨s, replyAll_of_parts (g := g) order (fun t ht => ?_) hwhole, hsame⟩
          obtain ⟨hledger, heffect⟩ := List.mem_filter.mp (hperm.mem_iff.mp ht)
          exact ⟨heffect, hown t hledger⟩
        · intro hsize c hc heq
          have hmem : c.part ∈ g.parts c.taken := by
            rw [← hown _ (hothers c hc)]
            exact List.mem_map_of_mem (mem_own.mpr ⟨hc, rfl⟩)
          exact hsize _ (hothers c hc) (heq ▸ hmem)
        · intro hnone
          exact ⟨List.countP_eq_zero.mpr fun t ht => by simp [(hnone t ht).1],
            List.countP_eq_zero.mpr fun t ht => by simp [(hnone t ht).2]⟩
      apart := exists_order h.nodup_ledger hown hothers
      closed := by
        intro o' ho'
        have hclosed := follow?_closed (g := g) ho' acts (start xs work o)
        rw [hrun] at hclosed
        exact hclosed
      length := by
        have heffort := follow?_effort hrun
        have hstart : (start xs work o).effort = (xs.map Exchange.effort).sum := by
          simp [effort, start]
        omega }

/-- **Commands that are started at once are as if one after another, key by key**, for all callees
whose calls end or are given up and in every order in which commands are taken on, the store is
touched and commands end. What the gateway does with them is one such course, and every course comes
to its end. -/
theorem linearizable_by_key {g : Gateway} {xs : List Exchange}
    (hopen : ∀ x ∈ xs, x.response = none) (hends : g.AlwaysEnds) (work : Gateway.State)
    (o : Outbox) :
    (∃ acts b, (start xs work o).follow? g acts = some b ∧ b.Over g ∧
      work.serveAll g xs o = (b.outbox, b.work)) ∧
    ∀ acts b, (start xs work o).follow? g acts = some b →
      (∃ more b', b.follow? g more = some b' ∧ b'.Over g) ∧
        (b.Over g → ∃ ledger done touches, Linearized g xs work o acts b ledger done touches) := by
  constructor
  · obtain ⟨acts, hacts⟩ := follow?_serveAll hends xs work o
    exact ⟨acts, _, hacts, over_of_empty rfl rfl rfl (by simp), rfl⟩
  · intro acts b hrun
    refine ⟨exists_over g b, fun hover => ?_⟩
    obtain ⟨ledger, underway, atWork, done, touches, ideal, h, hcount⟩ :=
      progress_follow hopen hends hrun
    obtain ⟨hwaiting, rfl, rfl, hdone⟩ := h.over hends hover
    exact ⟨ledger, done, touches, h.linearized hrun hwaiting hdone hcount⟩

/-- A burst that has come to this end is over. -/
def isOver (b : Burst) : Bool :=
  b.waiting.isEmpty && b.flights.isEmpty && b.servings.isEmpty && b.strays.all (·.ahead.isEmpty)

theorem over_of_isOver {b : Burst} (h : b.isOver = true) : b.Over g := by
  simp only [isOver, Bool.and_eq_true, List.isEmpty_iff, List.all_eq_true] at h
  exact over_of_empty h.1.1.1 h.1.1.2 h.1.2 h.2

/-- A store whose first call takes too long. -/
def sluggish : Gateway where
  routes := .own
  backend := ⟨fun ticket _ => .ends (if ticket = 0 then 200 else 10) (.returned .store)⟩
  limit := some 100

/-- The accesses for a `SET`, a `GETSET` and a `DEL` come in between one another; the `DEL` is given
up meanwhile, and another was before the store was at work on it. -/
theorem linearizable_by_key_interleaved :
    let xs : List Exchange := [⟨.set, 1, [[107], [97]], none⟩, ⟨.getSet, 1, [[107], [98]], none⟩,
      ⟨.del, 1, [[107]], none⟩, ⟨.ping, 1, [], none⟩, ⟨.del, 1, [[107], [108]], none⟩]
    ∃ acts b, (start xs { store := .fresh } { session := 1 }).follow? sluggish acts = some b ∧
      (b.outbox.waiting.map Outgoing.content = [.error "ERR Operation timed out!", .pong, .nil,
        .error "ERR Operation timed out!", .ok] ∧
      b.work.store.value? [107] = some [97] ∧ b.work.store.keys = 1 ∧ b.work.store.sets = 2 ∧
      b.work.store.dels = 2) ∧
      ∃ ledger done touches, Linearized sluggish xs { store := .fresh } { session := 1 } acts b
        ledger done touches := by
  intro xs
  have hopen : ∀ x ∈ xs, x.response = none := by decide
  have hends : sluggish.AlwaysEnds := Gateway.alwaysEnds_of_limit rfl
  have hcourse : ((start xs { store := .fresh } { session := 1 }).follow? sluggish
      [.launch 2, .launch 0, .launch 0, .launch 0, .launch 0,
        -- one call comes too late, the handler serves one, the store goes to work on three
        .land 2, .land 0, .land 1, .land 1, .land 0,
        .access 0, .access 1, .access 2, .access 0, .access 1, .access 2, .access 1, .access 0,
        .reply 0, .giveUp 0, .access 0, .reply 0, .stray 0, .stray 0, .stray 0]).any
      (fun b => b.isOver &&
        decide (b.outbox.waiting.map Outgoing.content = [.error "ERR Operation timed out!", .pong,
          .nil, .error "ERR Operation timed out!", .ok] ∧
        b.work.store.value? [107] = some [97] ∧ b.work.store.keys = 1 ∧ b.work.store.sets = 2 ∧
        b.work.store.dels = 2)) = true := by
    decide +kernel
  obtain ⟨b, hrun, hb⟩ := (Option.any_eq_true _ _).mp hcourse
  obtain ⟨hover, hfacts⟩ := Bool.and_eq_true_iff.mp hb
  exact ⟨_, b, hrun, of_decide_eq_true hfacts,
    ((linearizable_by_key hopen hends _ _).2 _ _ hrun).2 (over_of_isOver hover)⟩

/-! ## What has no place in the order -/

/-- The store answers in time, at once. -/
def prompt : Gateway := { routes := .own }

/-- Some course of commands at once gives them replies and leaves a store behind that whole
commands, one after another, get in no order. -/
def OutOfOrder (s : Store) (xs ys : List Exchange) : Prop :=
  ∃ acts b, (start xs { store := s } { session := 1 }).follow? prompt acts = some b ∧
    b.Over prompt ∧ b.outbox.waiting = ys.map .reply ∧
    ∀ order : List Exchange, order.Perm ys →
      s.replyAll (order.map fun y => { y with response := none }) ≠
        (order.map (·.response), b.work.store)

/-- To rule every order out it is enough to look at the replies. -/
theorem outOfOrder_of_replies {s : Store} {xs ys : List Exchange} (acts : List Act)
    (hcourse : ((start xs { store := s } { session := 1 }).follow? prompt acts).any
      (fun b => b.isOver && b.outbox.waiting == ys.map .reply) = true)
    (hreplies : (ys.permutations'.all fun order =>
      (s.replyAll (order.map fun y => { y with response := none })).1 !=
        order.map (·.response)) = true) : OutOfOrder s xs ys := by
  obtain ⟨b, hrun, hb⟩ := (Option.any_eq_true _ _).mp hcourse
  obtain ⟨hover, hwaiting⟩ := Bool.and_eq_true_iff.mp hb
  refine ⟨acts, b, hrun, over_of_isOver hover, beq_iff_eq.mp hwaiting, fun order hperm heq => ?_⟩
  have hne := List.all_eq_true.mp hreplies order (List.mem_permutations'.mpr hperm)
  rw [heq] at hne
  simp at hne

/-- **Whole commands are not in any order.** A `DEL` of two keys unbinds both, and an `EXISTS` that
comes in between finds one of them. A `DBSIZE` comes in between when a key is gone that was never
counted, and finds less than none. -/
theorem not_linearizable :
    let s := ((Store.fresh.set [97] [49]).2.set [98] [50]).2
    let two : List Exchange := [⟨.del, 1, [[97], [98]], none⟩, ⟨.exist, 1, [[97], [98]], none⟩]
    let three : List Exchange :=
      [⟨.set, 1, [[97], [98]], none⟩, ⟨.del, 1, [[97]], none⟩, ⟨.dbSize, 1, [], none⟩]
    (∀ ticket, ∀ x ∈ two ++ three, prompt.takesEffect ⟨0, ticket, x⟩ = true) ∧
      OutOfOrder s two [⟨.del, 1, [[97], [98]], some (.integer 2)⟩,
        ⟨.exist, 1, [[97], [98]], some (.integer 1)⟩] ∧
      OutOfOrder .fresh three [⟨.del, 1, [[97]], some (.integer 1)⟩,
        ⟨.dbSize, 1, [], some (.integer (-1))⟩, ⟨.set, 1, [[97], [98]], some .ok⟩] := by
  intro s two three
  refine ⟨fun ticket => ?_, ?_, ?_⟩
  · simp only [two, three, List.cons_append, List.nil_append, List.forall_mem_cons]
    exact ⟨rfl, rfl, rfl, rfl, rfl, by simp⟩
  · exact outOfOrder_of_replies
      [.launch 0, .launch 0, .land 0, .land 0, .access 0, .access 0, .access 0,
        .access 1, .access 1, .access 1, .access 1, .access 1, .access 1,
        .access 0, .access 0, .access 0, .reply 0, .reply 0]
      (by decide +kernel) (by decide +kernel)
  · exact outOfOrder_of_replies
      [.launch 0, .launch 0, .launch 0, .land 0, .land 0, .land 0, .access 0, .access 0,
        .access 1, .access 1, .access 1, .access 2, .access 2, .access 2,
        .reply 1, .reply 1, .access 0, .reply 0]
      (by decide +kernel) (by decide +kernel)

end Burst

end RespGateway
