import RespGateway.Proofs.Serves

/-!
# Letting time pass

`elapse` makes one possible move after another, up to a time. The moves that it picks are
moves like any others (`run_follow`). Where every command ends at the moment at which it
is taken on, they go on until the server is at rest (`elapse_rests`), so what holds of
all runs at rest holds after any time.
-/

namespace RespGateway

/-- Every command ends at the moment at which it is taken on. -/
def Gateway.EndsAtOnce (g : Gateway) : Prop :=
  ∀ ticket x, ∃ moment landing, (g.launch ticket x).outcome = some (moment, landing) ∧
    moment.time = 0

theorem Gateway.Plain.endsAtOnce {g : Gateway} (h : g.Plain) (hlimit : g.limit ≠ some 0) :
    g.EndsAtOnce := by
  intro ticket x
  obtain ⟨moment, landing, hlaunch⟩ := launch_ends h.alwaysEnds ticket x
  exact ⟨moment, landing, hlaunch, (h.outcome hlimit hlaunch).1⟩

theorem Connection.flights_finish (c : Connection) (why : Departure) :
    (c.finish why).flights = c.flights := by
  unfold Connection.finish
  dsimp only
  split <;> rfl

namespace Server

/-! ## Commands that can end now -/

/-- A command under way that can end by a time. -/
def Ripe (now : Nat) (f : Flight) : Prop :=
  ∃ moment landing, f.outcome = some (moment, landing) ∧ moment.time ≤ now

/-- Every command under way can end by now. -/
def AllRipe (s : Server) : Prop := ∀ c ∈ s.connections, ∀ f ∈ c.flights, Ripe s.clock f

variable {s s' : Server}

/-- What holds of all connections still does when one takes the place of another. -/
theorem forall_set {P : Connection → Prop} (h : ∀ c ∈ s.connections, P c) {i : Nat}
    {c' : Connection} (hconnections : s'.connections = s.connections.set i c') (hc' : P c') :
    ∀ c ∈ s'.connections, P c := by
  intro c hc
  rw [hconnections] at hc
  rcases List.mem_or_eq_of_mem_set hc with hc | rfl
  · exact h c hc
  · exact hc'

theorem AllRipe.set (h : s.AllRipe) {i : Nat} {c' : Connection}
    (hconnections : s'.connections = s.connections.set i c') (hclock : s'.clock = s.clock)
    (hc' : ∀ f ∈ c'.flights, Ripe s.clock f) : s'.AllRipe := by
  unfold AllRipe
  rw [hclock]
  exact forall_set h hconnections hc'

/-- A command that is taken on can end at once. -/
theorem ripe_launch {g : Gateway} (h : g.EndsAtOnce) (work : Gateway.State) (now : Nat)
    (x : Exchange) : Ripe now (work.launch g now x).1 := by
  obtain ⟨moment, landing, hlaunch, htime⟩ := h work.tickets x
  refine ⟨moment.after now, landing, ?_, ?_⟩
  · rw [Gateway.State.launch, hlaunch]
    rfl
  · rw [Moment.after, htime]
    exact Nat.le_refl _

theorem AllRipe.takeOn (h : s.AllRipe) (hg : s.gateway.EndsAtOnce) {i : Nat} {c : Connection}
    (hc : ∀ f ∈ c.flights, Ripe s.clock f) (x : Exchange) : (s.takeOn i c x).AllRipe := by
  refine h.set rfl rfl ?_
  intro f hf
  rcases List.mem_append.mp hf with hf | hf
  · exact hc f hf
  · rw [List.mem_singleton.mp hf]
    exact ripe_launch hg ..

/-- Commands that can end now still can after a move, which takes no time. -/
theorem AllRipe.move (h : s.AllRipe) (hg : s.gateway.EndsAtOnce) {m : Move}
    (hstep : s.perform? m = some s') :
    s'.AllRipe ∧ s'.clock = s.clock ∧ s'.gateway = s.gateway := by
  obtain ⟨c, hc, heffect⟩ := perform?_effect hstep
  generalize m.connection = i at hc heffect
  have hripe := h c (List.mem_of_getElem? hc)
  cases heffect with
  | refuse hreader hd hx => exact ⟨h.set rfl rfl hripe, rfl, rfl⟩
  | drain hreader hd hx hquit => exact ⟨h.set rfl rfl hripe, rfl, rfl⟩
  | takeOn hreader hd hx hquit =>
      refine ⟨h.takeOn hg ?_ _, rfl, rfl⟩
      exact hripe
  | takeOnLast hreader hflights => exact ⟨h.takeOn hg hripe _, rfl, rfl⟩
  | read hreader hd hroom hinbox => exact ⟨h.set rfl rfl hripe, rfl, rfl⟩
  | finish hreader hends =>
      refine ⟨h.set rfl rfl ?_, rfl, rfl⟩
      rw [Connection.flights_finish]
      exact hripe
  | @land ticket flight moment landing hfind houtcome =>
      have hclock : max s.clock moment.time = s.clock := by
        obtain ⟨moment', landing', houtcome', htime⟩ :=
          hripe flight (List.mem_of_find?_eq_some hfind)
        rw [houtcome] at houtcome'
        cases houtcome'
        exact Nat.max_eq_left htime
      exact ⟨h.set rfl hclock fun f hf => hripe f (List.mem_of_mem_filter hf), hclock, rfl⟩
  | write hwriter => exact ⟨h.set rfl rfl hripe, rfl, rfl⟩
  | release hfinished hflights hsenders => exact ⟨h.set rfl rfl hripe, rfl, rfl⟩
  | depart hreader hstopped hdeparted => exact ⟨h.set rfl rfl hripe, rfl, rfl⟩

/-- Nothing takes time while every command can end now. -/
theorem AllRipe.happen (h : s.AllRipe) (hg : s.gateway.EndsAtOnce) {e : Happening}
    (hstep : s.happen? e = some s') :
    s'.AllRipe ∧ s'.clock = s.clock ∧ s'.gateway = s.gateway := by
  cases e with
  | move m => exact h.move hg hstep
  | accept =>
      cases hstep
      refine ⟨?_, rfl, rfl⟩
      intro c hc f hf
      rcases List.mem_append.mp hc with hc | hc
      · exact h c hc f hf
      · rw [List.mem_singleton.mp hc] at hf
        cases hf
  | receive i a =>
      have hi : i < s.connections.length := by
        by_contra hi
        rw [happen?, if_neg hi] at hstep
        cases hstep
      rw [happen?, if_pos hi, receive, List.getElem?_eq_getElem hi] at hstep
      cases hstep
      exact ⟨h.set rfl rfl (h s.connections[i] (List.getElem_mem hi)), rfl, rfl⟩

theorem AllRipe.follow (h : s.AllRipe) (hg : s.gateway.EndsAtOnce) {run : List Happening}
    (hrun : s.follow? run = some s') :
    s'.AllRipe ∧ s'.clock = s.clock ∧ s'.gateway = s.gateway := by
  refine follow?_induction (P := fun _ s' => s'.AllRipe ∧ s'.clock = s.clock ∧
    s'.gateway = s.gateway) ⟨h, rfl, rfl⟩ ?_ hrun
  intro run s₁ e s₂ _ ⟨hripe, hclock, hgateway⟩ hstep
  obtain ⟨hripe', hclock', hgateway'⟩ := hripe.happen (hgateway ▸ hg) hstep
  exact ⟨hripe', hclock'.trans hclock, hgateway'.trans hgateway⟩

/-! ## Picking a move -/

theorem foldl_earlier_mem (dues : List (Moment × Nat × Nat)) (due : Moment × Nat × Nat) :
    dues.foldl earlier due ∈ due :: dues := by
  induction dues generalizing due with
  | nil => exact List.mem_singleton_self due
  | cons d dues ih =>
      have hpick : earlier due d = due ∨ earlier due d = d := by
        unfold earlier
        split
        · exact .inl rfl
        · exact .inr rfl
      rcases List.mem_cons.mp (ih (earlier due d)) with h | h
      · rw [List.foldl_cons, h]
        rcases hpick with h | h
        · rw [h]
          exact List.mem_cons_self ..
        · rw [h]
          exact List.mem_cons_of_mem _ (List.mem_cons_self ..)
      · exact List.mem_cons_of_mem _ (List.mem_cons_of_mem _ h)

theorem mem_dueBy {horizon : Nat} {moment : Moment} {i ticket : Nat} :
    (moment, i, ticket) ∈ s.dueBy horizon ↔
      ∃ c, s.connections[i]? = some c ∧ ∃ f ∈ c.flights, f.ticket = ticket ∧
        ∃ landing, f.outcome = some (moment, landing) ∧ moment.time ≤ horizon := by
  simp only [dueBy, List.mem_flatMap, List.mem_filterMap, Option.bind_eq_some_iff, Prod.exists,
    List.mem_zipIdx_iff_getElem?]
  constructor
  · rintro ⟨c, j, hc, f, hf, moment', landing, houtcome, hdue⟩
    split at hdue
    · cases hdue
      exact ⟨c, hc, f, hf, rfl, landing, houtcome, ‹_›⟩
    · cases hdue
  · rintro ⟨c, hc, f, hf, rfl, landing, houtcome, htime⟩
    exact ⟨c, i, hc, f, hf, moment, landing, houtcome, if_pos htime⟩

/-- A command that is picked is one that can end by the time. -/
theorem nextLanding?_mem {horizon : Nat} {m : Move} (h : s.nextLanding? horizon = some m) :
    ∃ moment i ticket, m = .land i ticket ∧ (moment, i, ticket) ∈ s.dueBy horizon := by
  unfold nextLanding? at h
  cases hdues : s.dueBy horizon with
  | nil => simp [hdues] at h
  | cons due dues =>
      simp only [hdues, Option.some.injEq] at h
      exact ⟨_, _, _, h.symm, foldl_earlier_mem dues due⟩

theorem next?_perform {horizon : Nat} (h : s.next? horizon = some s') :
    ∃ m, s.perform? m = some s' := by
  obtain ⟨m, -, hm⟩ := List.exists_of_findSome?_eq_some h
  exact ⟨m, hm⟩

/-- A ripe command of a connection can end. -/
theorem perform?_land (hripe : s.AllRipe) {i : Nat} {c : Connection}
    (hc : s.connections[i]? = some c) {f : Flight} (hf : f ∈ c.flights) :
    s.perform? (.land i f.ticket) ≠ none := by
  obtain ⟨f', hf'⟩ := exists_find?_ticket hf
  obtain ⟨moment, landing, houtcome, -⟩ :=
    hripe c (List.mem_of_getElem? hc) f' (List.mem_of_find?_eq_some hf')
  rw [perform?, hc, Option.bind_some, land?, hf', Option.bind_some, houtcome]
  exact Option.some_ne_none _

/-- Where commands can end by the time, one of them is picked. -/
theorem nextLanding?_of_mem {horizon : Nat} {due : Moment × Nat × Nat}
    (h : due ∈ s.dueBy horizon) : ∃ m, s.nextLanding? horizon = some m := by
  unfold nextLanding?
  cases hdues : s.dueBy horizon with
  | nil =>
      rw [hdues] at h
      cases h
  | cons due dues => exact ⟨_, rfl⟩

/-- Moves that need no waiting come first, so none is possible where none is picked. -/
theorem promptMoves_none {horizon : Nat} (h : s.next? horizon = none) {i : Nat} {m : Move}
    (hm : m ∈ promptMoves i) : s.perform? m = none := by
  rw [next?, List.findSome?_eq_none_iff] at h
  by_cases hi : i < s.connections.length
  · refine h m (List.mem_append_left _ (List.mem_flatMap.mpr ⟨i, ?_, hm⟩))
    exact List.mem_range.mpr hi
  · have hnone : s.connections[i]? = none := List.getElem?_eq_none (Nat.le_of_not_lt hi)
    simp only [promptMoves, List.mem_cons, List.not_mem_nil, or_false] at hm
    rcases hm with rfl | rfl | rfl | rfl <;> rw [perform?, hnone] <;> rfl

/-- Where no move is picked, none is possible. -/
theorem next?_none {horizon : Nat} (h : s.next? horizon = none) (hripe : s.AllRipe)
    (htime : s.clock ≤ horizon) : s.AtRest := by
  intro m
  cases m with
  | reader i => exact promptMoves_none h (i := i) (by simp [promptMoves])
  | writer i => exact promptMoves_none h (i := i) (by simp [promptMoves])
  | release i => exact promptMoves_none h (i := i) (by simp [promptMoves])
  | depart i => exact promptMoves_none h (i := i) (by simp [promptMoves])
  | land i ticket =>
      by_contra hsome
      obtain ⟨s', hs'⟩ := Option.ne_none_iff_exists'.mp hsome
      obtain ⟨c, hc, heffect⟩ := perform?_effect hs'
      cases heffect with
      | @land _ flight moment landing hfind houtcome =>
          -- a command can end, so one is picked, and that one can end as well
          have hflight := List.mem_of_find?_eq_some hfind
          obtain ⟨moment', landing', houtcome', hle⟩ :=
            hripe c (List.mem_of_getElem? hc) flight hflight
          have hdue : (moment', i, flight.ticket) ∈ s.dueBy horizon :=
            mem_dueBy.mpr ⟨c, hc, flight, hflight, rfl, landing', houtcome',
              Nat.le_trans hle htime⟩
          obtain ⟨m, hm⟩ := nextLanding?_of_mem hdue
          rw [next?, List.findSome?_eq_none_iff] at h
          have hstuck := h m (List.mem_append_right _ (by rw [hm]; exact List.mem_singleton_self m))
          obtain ⟨moment₁, j, ticket₁, rfl, hmem⟩ := nextLanding?_mem hm
          obtain ⟨d, hd, f, hf, rfl, -⟩ := mem_dueBy.mp hmem
          exact perform?_land hripe hd hf hstuck

/-! ## Picking moves one after another -/

/-- The moves that are picked are a series of moves. It ends in a state in which none is picked, if
there is enough fuel for all. -/
theorem run_follow {g : Gateway} (hg : g.EndsAtOnce) {horizon : Nat} :
    ∀ (fuel : Nat) {s : Server}, s.gateway = g → s.AllRipe → s.clock ≤ horizon →
      s.effort ≤ fuel →
      ∃ moves : List Move, s.follow? (moves.map .move) = some (s.run horizon fuel) ∧
        (s.run horizon fuel).AtRest := by
  intro fuel
  induction fuel with
  | zero =>
      intro s _ hripe htime heffort
      have hnext : s.next? horizon = none := by
        by_contra hsome
        obtain ⟨s', hs'⟩ := Option.ne_none_iff_exists'.mp hsome
        obtain ⟨m, hm⟩ := next?_perform hs'
        have := perform?_effort hm
        omega
      exact ⟨[], rfl, next?_none hnext hripe htime⟩
  | succ fuel ih =>
      intro s hgateway hripe htime heffort
      rw [run]
      cases hnext : s.next? horizon with
      | none => exact ⟨[], rfl, next?_none hnext hripe htime⟩
      | some s' =>
          obtain ⟨m, hm⟩ := next?_perform hnext
          obtain ⟨hripe', hclock, hgateway'⟩ := hripe.move (hgateway ▸ hg) hm
          have := perform?_effort hm
          obtain ⟨moves, hmoves, hrest⟩ := ih (hgateway'.trans hgateway) hripe'
            (hclock ▸ htime) (by omega)
          refine ⟨m :: moves, ?_, hrest⟩
          rw [List.map_cons, follow?, List.foldlM_cons]
          change (s.perform? m).bind _ = _
          rw [hm]
          exact hmoves

/-- **A server comes to rest in any time after a run**, where every command ends at once. -/
theorem elapse_rests (hg : s.gateway.EndsAtOnce) (hripe : s.AllRipe) {run : List Happening}
    (hrun : s.follow? run = some s') (period : Nat) :
    ∃ (moves : List Move) (s'' : Server), s'.follow? (moves.map .move) = some s'' ∧
      s''.AtRest ∧ s'.elapse period = { s'' with clock := s.clock + period } := by
  obtain ⟨hripe', hclock, hgateway⟩ := hripe.follow hg hrun
  obtain ⟨moves, hmoves, hrest⟩ := run_follow (hgateway ▸ hg) s'.effort rfl hripe'
    (Nat.le_add_right s'.clock period) (Nat.le_refl _)
  exact ⟨moves, _, hmoves, hrest, by rw [elapse, hclock]⟩

end Server

end RespGateway
