import RespGateway.Proofs.InOrder

/-!
# When reader and writer end

The reader of a connection ends by the command of a request, its writer by the command of
a reply. The two are the same command unless a handler hands back an exchange under
`QUIT` where it was given another command: such a reply is `Premature`. Where none is put
out, the writer stops only after the reader, with everything sent, and nothing is done for
the connection any more (`Standing.endedTogether`, `Idle.work_eq`). A premature reply is
the last that the client receives, whatever the reader goes on to do.

Nothing is assumed about handlers, and both modes are covered. `Accounted` says what else
holds of every state: what has been done for a client answers what it has said.
-/

namespace RespGateway

/-- What is done for a client of which `said` has been heard: the commands taken on, what is put
out and what is sent. -/
structure Accounted (g : Gateway) (said : Transcript) (taken : List Taken) (put : List Delivery)
    (c : Connection) : Prop where
  /-- The commands taken on are those of requests, each at most once. -/
  commands : ∃ later, (commandsOf c.session said.requests).Perm (taken.map Taken.exchange ++ later)
  /-- Calls are made for them on behalf of the client. -/
  calls : ∀ t ∈ taken, ∀ call ∈ t.calls g, call.client = c.session
  /-- Only its own commands are replied to. -/
  own : ∀ t y, Delivery.reply t y ∈ put → t ∈ taken
  /-- Only requests are answered, each at most once. -/
  answers : ∃ waiting, (said.requests.map (Exchange.decode c.session)).Perm
    (put.filterMap Delivery.request? ++ waiting)
  /-- The client receives what is put out, whole and in this order. -/
  sent : ∃ flushed, flushed <+: put.map Delivery.item ∧ c.writer.sent = wire flushed

/-- A reply that ends the connection although the command was no `QUIT`. -/
def Delivery.Premature : Delivery → Prop
  | .reply t y => y.command = .quit ∧ t.exchange.command ≠ .quit
  | _ => False

/-- No reply ends the connection before its client quits. -/
def Timely (put : List Delivery) : Prop := ∀ d ∈ put, ¬d.Premature

namespace Delivery

theorem isLast_of_premature {d : Delivery} (h : d.Premature) : d.item.isLast = true := by
  cases d with
  | reply t y => exact beq_iff_eq.mpr h.1
  | refusal why => cases h
  | farewell r => cases h

/-- A last item that is not premature is the reply to a `QUIT`. -/
theorem quit_of_isLast {d : Delivery} (h : d.item.isLast = true) (hd : ¬d.Premature) :
    ∃ t y, d = .reply t y ∧ t.exchange.command = .quit ∧ y.command = .quit := by
  cases d with
  | reply t y =>
      have hy : y.command = .quit := beq_iff_eq.mp h
      refine ⟨t, y, rfl, ?_, hy⟩
      by_contra ht
      exact hd ⟨hy, ht⟩
  | refusal why => cases h
  | farewell r => cases h

/-- **Only what a handler hands back is premature.** -/
theorem Comes.premature {g : Gateway} {t : Taken} {y : Exchange} {s s' : Store}
    (h : (Delivery.reply t y).Comes g s s') (hopen : t.exchange.response = none)
    (hpremature : (Delivery.reply t y).Premature) :
    ∃ handler ticket delay, g.routes.lookup t.exchange.command = some handler ∧
      handler.act ticket t.exchange = .ends delay (.returned y) := by
  obtain ⟨hquit, hother⟩ := hpremature
  cases h with
  | reply hlaunch hland =>
      have houtcome := launch_outcome hlaunch
      -- every other end leaves the command as it was
      cases houtcome with
      | failed text =>
          cases hland
          exact absurd hquit hother
      | returned hroute hact _ =>
          cases hland
          exact ⟨_, _, _, hroute, hact⟩
      | answer r =>
          rw [Landing.land, respond_of_none hopen] at hland
          cases hland
          exact absurd hquit hother
      | serve _ =>
          simp only [Landing.land, respond_of_none hopen] at hland
          cases hland
          exact absurd hquit hother

end Delivery

/-! ## A writer that has stopped -/

theorem Writer.isStopped_iff (w : Writer) : w.isStopped = true ↔ w.phase = .stopped := by
  rw [Writer.isStopped, beq_iff_eq]

theorem Connection.isFinished_iff (c : Connection) :
    c.isFinished = true ↔ ∃ why, c.reader = .finished why := by
  unfold Connection.isFinished
  cases c.reader <;> simp

theorem untilLast_singleton (item : Outgoing) : untilLast [item] = [item] := by
  simp [untilLast]

/-- Nothing is taken from behind a last item. -/
theorem untilLast_prefix_of_last {item : Outgoing} (h : item.isLast = true)
    (items behind : List Outgoing) :
    untilLast (items ++ item :: behind) <+: items ++ [item] := by
  have hlast : ∃ i ∈ items ++ [item], i.isLast = true := ⟨item, by simp, h⟩
  rw [show items ++ item :: behind = (items ++ [item]) ++ behind by simp,
    untilLast_append_of_last hlast]
  exact prefix_untilLast _

/-- Reader and writer have ended, and all that was taken on has been replied to. -/
structure EndedTogether (taken : List Taken) (put : List Delivery) (c : Connection) : Prop where
  reader : c.isFinished = true
  flights : c.flights = []
  replied : taken.Perm (put.filterMap Delivery.taken?)
  sent : c.writer.sent = wire (put.map Delivery.item)

namespace Standing

variable {g : Gateway} {o : Connection.Options} {arrived : List Arrival} {taken : List Taken}
  {put : List Delivery} {c : Connection} {past : List (List Bytes)} {underway : List Taken}

/-- Whatever has been done is done for requests that were heard. -/
theorem accounted (h : Standing g o arrived taken put c past underway) :
    Accounted g (Transcript.ofArrivals o.maxBuffer [] arrived) taken put c := by
  obtain ⟨flushed, hflushed, hsent⟩ := h.carried.sent_partly
  refine ⟨?_, fun t ht call hcall => h.call_client ht hcall, fun t y => h.own, ?_,
    flushed, hflushed.trans (prefix_untilLast _), hsent⟩
  · refine ⟨c.reader.held.filterMap Except.toOption ++
      commandsOf c.session (c.outlook o []).requests, ?_⟩
    rw [h.requests_now, commandsOf_append, ← List.append_assoc]
    exact h.commands_past.perm.append_right _
  · refine ⟨underway.map (.ok ·.exchange) ++ c.reader.held ++
      (c.outlook o []).requests.map (Exchange.decode c.session), ?_⟩
    rw [h.requests_now, List.map_append]
    simpa only [List.append_assoc] using h.opened.perm.append_right
      ((c.outlook o []).requests.map (Exchange.decode c.session))

/-- A last item comes with the end of the reader. -/
theorem quits_of_last (h : Standing g o arrived taken put c past underway) (htimely : Timely put)
    {d : Delivery} (hd : d ∈ put) (hlast : d.item.isLast = true) : c.reader = .finished .quit := by
  obtain ⟨t, y, rfl, hquit, -⟩ := Delivery.quit_of_isLast hlast (htimely d hd)
  by_contra hreader
  exact h.quits.none_before hreader t y hd hquit

/-- The writer passes over nothing that is put out. -/
theorem untilLast_timely (h : Standing g o arrived taken put c past underway)
    (htimely : Timely put) : untilLast (put.map Delivery.item) = put.map Delivery.item := by
  by_cases hreader : c.reader = .finished .quit
  · obtain ⟨earlier, t, y, rfl, -, hnone⟩ := h.quits.last hreader
    have hearlier : ∀ item ∈ earlier.map Delivery.item, item.isLast = false := by
      intro item hitem
      obtain ⟨d, hd, rfl⟩ := List.mem_map.mp hitem
      rw [Bool.eq_false_iff]
      intro hlast
      obtain ⟨t', y', rfl, hquit, -⟩ :=
        Delivery.quit_of_isLast hlast (htimely d (List.mem_append_left _ hd))
      exact hnone t' y' hd hquit
    rw [List.map_append, untilLast_append hearlier, List.map_singleton, untilLast_singleton]
  · refine untilLast_of_none fun item hitem => ?_
    obtain ⟨d, hd, rfl⟩ := List.mem_map.mp hitem
    rw [Bool.eq_false_iff]
    exact fun hlast => hreader (h.quits_of_last htimely hd hlast)

theorem ended_of_stopped (h : Standing g o arrived taken put c past underway)
    (htimely : Timely put) (hstopped : c.writer.phase = .stopped) :
    c.isFinished = true ∧ underway = [] := by
  cases hsenders : c.writer.hasSenders with
  | false => exact h.released hsenders
  | true =>
      -- the writer has stopped by itself, after the reply to a `QUIT`
      obtain ⟨item, hitem, hlast⟩ := h.carried.last_of_stopped hstopped hsenders
      obtain ⟨d, hd, rfl⟩ := List.mem_map.mp hitem
      have hreader := h.quits_of_last htimely hd hlast
      have hstage := h.stage
      rw [hreader] at hstage
      exact ⟨c.isFinished_iff.mpr ⟨_, hreader⟩, hstage.2 rfl⟩

/-- **A writer that stops without a premature reply has sent everything.** -/
theorem endedTogether (h : Standing g o arrived taken put c past underway) (htimely : Timely put)
    (hstopped : c.writer.isStopped = true) : EndedTogether taken put c := by
  have hphase := c.writer.isStopped_iff.mp hstopped
  obtain ⟨hfinished, rfl⟩ := h.ended_of_stopped htimely hphase
  refine ⟨hfinished, List.forall₂_nil_left_iff.mp h.flights, ?_, ?_⟩
  · simpa only [List.append_nil] using h.ends.perm
  · rw [h.carried.sent_of_stopped hphase, h.untilLast_timely htimely]

/-- A premature reply is the last that the client receives. -/
theorem sent_premature (h : Standing g o arrived taken put c past underway)
    {before behind : List Delivery} {d : Delivery} (hput : put = before ++ d :: behind)
    (hd : d.Premature) :
    ∃ flushed, flushed <+: (before ++ [d]).map Delivery.item ∧ c.writer.sent = wire flushed := by
  obtain ⟨flushed, hflushed, hsent⟩ := h.carried.sent_partly
  refine ⟨flushed, hflushed.trans ?_, hsent⟩
  rw [hput, List.map_append, List.map_cons, List.map_append, List.map_singleton]
  exact untilLast_prefix_of_last (Delivery.isLast_of_premature hd) _ _

/-- With nothing left to do, the writer has stopped exactly if the reader has ended or a reply was
premature. -/
theorem stopped_iff (h : Standing g o arrived taken put c past underway)
    (hsettled : c.Settled o) :
    c.writer.isStopped = true ↔ c.isFinished = true ∨ ∃ d ∈ put, d.Premature := by
  constructor
  · intro hstopped
    by_cases hpremature : ∃ d ∈ put, d.Premature
    · exact Or.inr hpremature
    · have htimely : Timely put := fun d hd hpre => hpremature ⟨d, hd, hpre⟩
      exact Or.inl (h.endedTogether htimely hstopped).reader
  · intro hends
    rw [Writer.isStopped_iff]
    cases hsettled with
    | ended _ hstopped _ => exact hstopped
    | listening hreader _ _ _ _ hwriter =>
        rcases hwriter with hstopped | ⟨hwaiting, hempty⟩
        · exact hstopped
        · exfalso
          rcases hends with hfinished | ⟨d, hd, hpremature⟩
          · obtain ⟨why, hwhy⟩ := c.isFinished_iff.mp hfinished
            rw [hreader] at hwhy
            cases hwhy
          · have hlast := (h.carried.sent_of_waiting hwaiting hempty).2 _ (List.mem_map_of_mem hd)
            rw [Delivery.isLast_of_premature hpremature] at hlast
            cases hlast

end Standing

namespace Server

/-! ## Nothing more is done -/

/-- The reader of a connection has ended, and no command of it is under way. -/
def Idle (s : Server) (i : Nat) : Prop :=
  ∃ c, s.connections[i]? = some c ∧ c.isFinished = true ∧ c.flights = []

/-- An idle connection stays idle, and its moves leave alone what the gateway works on. -/
theorem Effect.idle {s s' : Server} {i : Nat} {c : Connection} {m : Move}
    (h : Effect s i c m s') (hc : s.connections[i]? = some c) (hfinished : c.isFinished = true)
    (hflights : c.flights = []) : s'.Idle i ∧ s'.work = s.work := by
  obtain ⟨why, hwhy⟩ := c.isFinished_iff.mp hfinished
  have hi := (List.getElem?_eq_some_iff.mp hc).1
  have hown : ∀ c', (s.connections.set i c')[i]? = some c' := fun c' =>
    List.getElem?_set_self hi
  -- all moves of a reader that has not ended are out of the question
  cases h with
  | refuse hreader => rw [hwhy] at hreader; cases hreader
  | drain hreader => rw [hwhy] at hreader; cases hreader
  | takeOn hreader => rw [hwhy] at hreader; cases hreader
  | takeOnLast hreader => rw [hwhy] at hreader; cases hreader
  | read hreader => rw [hwhy] at hreader; cases hreader
  | finish hreader => rw [hwhy] at hreader; cases hreader
  | land hfind => rw [hflights] at hfind; cases hfind
  | write => exact ⟨⟨_, hown _, hfinished, hflights⟩, rfl⟩
  | release => exact ⟨⟨_, hown _, hfinished, hflights⟩, rfl⟩
  | depart => exact ⟨⟨_, hown _, hfinished, hflights⟩, rfl⟩

namespace Idle

variable {s s' : Server} {i : Nat}

theorem move (h : s.Idle i) {m : Move} (hstep : s.perform? m = some s') : s'.Idle i := by
  obtain ⟨c, hc, hfinished, hflights⟩ := h
  obtain ⟨c₁, hc₁, heffect⟩ := perform?_effect hstep
  by_cases hm : m.connection = i
  · rw [hm] at hc₁ heffect
    rw [hc] at hc₁
    cases hc₁
    exact (heffect.idle hc hfinished hflights).1
  · obtain ⟨c', hc'⟩ := heffect.connections
    refine ⟨c, ?_, hfinished, hflights⟩
    rw [hc', List.getElem?_set_ne hm]
    exact hc

theorem happen (h : s.Idle i) {e : Happening} (hstep : s.happen? e = some s') : s'.Idle i := by
  cases e with
  | move m => exact h.move hstep
  | accept =>
      obtain ⟨c, hc, hfinished, hflights⟩ := h
      cases hstep
      refine ⟨c, ?_, hfinished, hflights⟩
      rw [Server.accept, List.getElem?_append_left (List.getElem?_eq_some_iff.mp hc).1]
      exact hc
  | receive j a =>
      obtain ⟨c, hc, hfinished, hflights⟩ := h
      simp only [happen?] at hstep
      split at hstep
      · rename_i hj
        cases hstep
        rw [Server.receive, List.getElem?_eq_getElem hj]
        by_cases hij : j = i
        · subst hij
          obtain rfl : s.connections[j] = c := (List.getElem?_eq_some_iff.mp hc).2
          exact ⟨_, List.getElem?_set_self hj, hfinished, hflights⟩
        · exact ⟨c, (List.getElem?_set_ne hij).trans hc, hfinished, hflights⟩
      · cases hstep

/-- **An idle connection stays idle.** -/
theorem follow (h : s.Idle i) {later : List Happening} (hlater : s.follow? later = some s') :
    s'.Idle i :=
  follow?_induction (P := fun _ s' => s'.Idle i) h (fun _ _ _ _ _ ih hstep => ih.happen hstep)
    hlater

/-- No move of an idle connection makes a call, takes on a command or touches the store. -/
theorem work_eq (h : s.Idle i) {m : Move} (hm : m.connection = i)
    (hstep : s.perform? m = some s') : s'.work = s.work := by
  obtain ⟨c, hc, hfinished, hflights⟩ := h
  obtain ⟨c₁, hc₁, heffect⟩ := perform?_effect hstep
  rw [hm] at hc₁ heffect
  rw [hc] at hc₁
  cases hc₁
  exact (heffect.idle hc hfinished hflights).2

end Idle

/-- Whatever happens later, nothing is taken on for a connection, called for it or ended for it. -/
def WorksNoMoreFor (s : Server) (i : Nat) : Prop :=
  ∀ later s₁ m s₂, s.follow? later = some s₁ → m.connection = i → s₁.perform? m = some s₂ →
    s₂.work = s₁.work

theorem Idle.worksNoMore {s : Server} {i : Nat} (h : s.Idle i) : s.WorksNoMoreFor i :=
  fun _ _ _ _ hlater hm hstep => (h.follow hlater).work_eq hm hstep

/-! ## How the two ends of a connection part -/

/-- How reader and writer of a connection end, by what was taken on and put out for it. -/
structure Parting (g : Gateway) (o : Connection.Options) (store : Store) (run : List Happening)
    (s : Server) (i : Nat) (c : Connection) (ledger : List Taken)
    (history : List (Nat × Delivery)) : Prop where
  replays : Replays g store history s.work.store
  calls : s.work.calls = ledger.flatMap (Taken.calls g)
  accounted : Accounted g (.ofArrivals o.maxBuffer [] (arrived run i)) (takenOn i ledger)
    (putOut i history) c
  /-- The writer stops after the reader, with all sent and nothing left to do. -/
  together : Timely (putOut i history) → c.writer.isStopped = true →
    EndedTogether (takenOn i ledger) (putOut i history) c ∧ s.WorksNoMoreFor i
  /-- A last item comes only with the end of the reader. -/
  quits : Timely (putOut i history) → (∃ d ∈ putOut i history, d.item.isLast = true) →
    c.reader = .finished .quit
  /-- Of what is put out behind a premature reply nothing is ever sent. -/
  cut : ∀ before d behind, putOut i history = before ++ d :: behind → d.Premature →
    ∃ flushed, flushed <+: (before ++ [d]).map Delivery.item ∧ c.writer.sent = wire flushed
  /-- At rest the writer has stopped exactly if the reader has ended or a reply was premature. -/
  stopped : g.AlwaysEnds → s.AtRest →
    (c.writer.isStopped = true ↔ c.isFinished = true ∨ ∃ d ∈ putOut i history, d.Premature)
  /-- A premature reply is what a handler handed back for another command. -/
  origin : ∀ t y, Delivery.reply t y ∈ putOut i history → (Delivery.reply t y).Premature →
    ∃ handler ticket delay, g.routes.lookup t.exchange.command = some handler ∧
      handler.act ticket t.exchange = .ends delay (.returned y)

/-- **Reader and writer end together unless a handler hands back a `QUIT` that it was not given.**
This is so in every state of every run, in both modes and for all callees. -/
theorem run_parting {g : Gateway} {o : Connection.Options} {store : Store}
    {run : List Happening} {s : Server} {i : Nat} {c : Connection}
    (hrun : (start g o store).follow? run = some s) (hc : s.connections[i]? = some c) :
    ∃ ledger history, Parting g o store run s i c ledger history := by
  obtain ⟨ledger, history, hbooks, hreplays⟩ := books_run hrun
  obtain ⟨-, past, underway, hst⟩ := hbooks.connections i c hc
  refine ⟨ledger, history, ?_⟩
  exact
    { replays := hreplays
      calls := hbooks.calls
      accounted := hst.accounted
      together := by
        intro htimely hstopped
        have hended := hst.endedTogether htimely hstopped
        have hidle : s.Idle i := ⟨c, hc, hended.reader, hended.flights⟩
        exact ⟨hended, hidle.worksNoMore⟩
      quits := by
        rintro htimely ⟨d, hd, hlast⟩
        exact hst.quits_of_last htimely hd hlast
      cut := fun before d behind hput hd => hst.sent_premature hput hd
      stopped := by
        intro hends hrest
        obtain ⟨hsettled, past', hst'⟩ := hbooks.settled hends hrest hc
        exact hst'.stopped_iff hsettled
      origin := by
        intro t y hmem hpremature
        obtain ⟨s₁, s₂, hcomes⟩ := hreplays.comes (mem_putOut.mp hmem)
        obtain ⟨arguments, -, hdecode⟩ := hst.request_heard hmem rfl
        exact hcomes.premature (Exchange.decode_ok hdecode).2.1 hpremature }

/-- A handler of `APPEND` that hands back a `QUIT`. -/
def swap : Handler where
  name := "swap"
  commands := [.append]
  act _ x := .ends 0 (.returned ⟨.quit, x.client, [], some .ok⟩)

def swapping : Gateway where
  routes := ⟨fun command => if command = .append then some swap else none⟩

/-- A client appends to a key and then sets it. The writer stops after the first reply; then the
second command is taken on, changes the store, and its reply is lost. -/
theorem run_parting_early :
    ∃ (before later : List Happening) (s s' : Server) (c c' : Connection),
      (start swapping {} .fresh).follow? before = some s ∧ s.connections[0]? = some c ∧
      c.writer.isStopped = true ∧
      (start swapping {} .fresh).follow? (before ++ later) = some s' ∧
      s'.connections[0]? = some c' ∧
      s'.work.calls = s.work.calls ++
        [.backend { operation := .put, client := 1, key := some [107], value := some [118] }] ∧
      s'.work.store.value? [107] = some [118] ∧
      c'.writer.sent = [43, 79, 75, 13, 10] ∧ c'.isFinished = false ∧
      ∃ ledger history,
        Parting swapping {} .fresh (before ++ later) s' 0 c' ledger history := by
  have hrun : (start swapping {} .fresh).follow?
      ([.accept, .receive 0 (.bytes [65, 80, 80, 69, 78, 68, 32, 107, 32, 118, 13, 10, 83, 69, 84,
          32, 107, 32, 118, 13, 10]),
        .move (.reader 0), .move (.reader 0), .move (.land 0 0), .move (.writer 0),
        .move (.writer 0), .move (.writer 0)] ++ [.move (.reader 0), .move (.land 0 1)]) =
      some _ := rfl
  exact ⟨_, _, _, _, _, _, rfl, rfl, rfl, hrun, rfl, rfl, rfl, rfl, rfl, run_parting hrun rfl⟩

end Server

end RespGateway
