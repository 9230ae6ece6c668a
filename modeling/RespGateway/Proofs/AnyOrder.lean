import Mathlib.Data.List.Perm.Basic
import RespGateway.Proofs.Closing

/-!
# Replies in any order

In unordered mode replies overtake each other. None is lost and none is doubled: what is
put out for a client answers its requests one for one, in some order. A `QUIT` is answered
behind everything else, and a writer that shuts down has sent it all.

`AnsweredAll` says so of a connection that has ended and of a server at rest; of every
other state there is `Accounted`. Nothing here asks for the mode; in ordered mode there is
more to say of the order.
-/

namespace RespGateway

/-- All that was to be done for a client of which `said` has been heard is done. -/
structure AnsweredAll (said : Transcript) (taken : List Taken) (put : List Delivery)
    (c : Connection) : Prop where
  commands : (commandsOf c.session said.requests).Perm (taken.map Taken.exchange)
  /-- Every request is answered once, and the client is told why the connection ends if it is to be
  told. -/
  answers : ∃ answers, Answers c.session said.requests answers ∧
    put.Perm (answers ++ said.farewell.map Delivery.farewell)
  sent : c.writer.sent = wire (put.map Delivery.item)
  /-- The reply to a `QUIT` comes last. -/
  quit_last : said.ending = some .quit → ∃ earlier t y, put = earlier ++ [.reply t y] ∧
    t.exchange.command = .quit ∧ y.command = .quit ∧ NoQuit earlier

/-! ## Answers in any order -/

theorem forall₂_request (put : List Delivery) :
    List.Forall₂ (fun d r => Delivery.request? d = some r)
      (put.filter (·.farewell?.isNone)) (put.filterMap Delivery.request?) := by
  induction put with
  | nil => exact .nil
  | cons d put ih =>
      cases d with
      | refusal why => exact .cons rfl ih
      | reply t y => exact .cons rfl ih
      | farewell r => exact ih

theorem filter_farewell (put : List Delivery) :
    put.filter (fun d => !d.farewell?.isNone) =
      (put.filterMap Delivery.farewell?).map Delivery.farewell := by
  induction put with
  | nil => rfl
  | cons d put ih =>
      cases d with
      | refusal why => exact ih
      | reply t y => exact ih
      | farewell r => exact congrArg (Delivery.farewell r :: ·) ih

/-- What is put out for requests can be arranged in their order. -/
theorem exists_answers {client : UInt64} {requests : List (List Bytes)} {put : List Delivery}
    (h : (put.filterMap Delivery.request?).Perm (requests.map (Exchange.decode client))) :
    ∃ answers, Answers client requests answers ∧
      put.Perm (answers ++ (put.filterMap Delivery.farewell?).map Delivery.farewell) := by
  obtain ⟨answers, hanswers, hperm⟩ := List.perm_comp_forall₂ h.symm (forall₂_request put).flip
  refine ⟨answers, List.forall₂_map_left_iff.mp hanswers, ?_⟩
  rw [← filter_farewell]
  have hparts := List.filter_append_perm (fun d : Delivery => d.farewell?.isNone) put
  exact hparts.symm.trans (hperm.symm.append_right _)

/-- Replies that have the commands they are for end no connection early. -/
theorem timely_of_kept {put : List Delivery}
    (h : ∀ t y, Delivery.reply t y ∈ put → y.command = t.exchange.command) : Timely put := by
  intro d hd hpremature
  cases d with
  | reply t y => exact hpremature.2 ((h t y hd).symm.trans hpremature.1)
  | refusal why => cases hpremature
  | farewell r => cases hpremature

namespace Standing

variable {g : Gateway} {o : Connection.Options} {arrived : List Arrival} {taken : List Taken}
  {put : List Delivery} {c : Connection} {past : List (List Bytes)} {underway : List Taken}

/-- Where no command is under way everything has been answered. -/
theorem answeredAll (h : Standing g o arrived taken put c past []) {said : Transcript}
    (hheld : c.reader.held = []) (hrequests : said.requests = past)
    (hfarewell : said.farewell = c.reader.told)
    (hquit : said.ending = some .quit → c.reader = .finished .quit)
    (hsent : c.writer.sent = wire (put.map Delivery.item))
    (hkept : ∀ t y, Delivery.reply t y ∈ put → y.command = t.exchange.command) :
    AnsweredAll said taken put c := by
  have hcommands := h.commands_past.perm
  have hopened := h.opened.perm
  rw [hheld] at hcommands hopened
  simp only [List.map_nil, List.filterMap_nil, List.append_nil] at hcommands hopened
  refine ⟨?_, ?_, hsent, ?_⟩
  · rw [hrequests]
    exact hcommands
  · rw [hrequests, hfarewell, ← h.told]
    exact exists_answers hopened.symm
  · intro hending
    obtain ⟨earlier, t, y, hput, ht, hnone⟩ := h.quits.last (hquit hending)
    have hmem : Delivery.reply t y ∈ put := by simp [hput]
    exact ⟨earlier, t, y, hput, ht, (hkept t y hmem).trans ht, hnone⟩

/-- A connection whose reader has ended has answered all it has heard once its writer has sent what
was put out. -/
theorem answeredAll_finished (h : Standing g o arrived taken put c past []) {why : Departure}
    (hreader : c.reader = .finished why) (hsent : c.writer.sent = wire (put.map Delivery.item))
    (hkept : ∀ t y, Delivery.reply t y ∈ put → y.command = t.exchange.command) :
    AnsweredAll (Transcript.ofArrivals o.maxBuffer [] arrived) taken put c ∧
      (Transcript.ofArrivals o.maxBuffer [] arrived).ending = some why := by
  have hheard : Transcript.ofArrivals o.maxBuffer [] arrived =
      (Transcript.ended why).after past := by
    rw [h.heard_now, Connection.outlook, hreader]
  rw [hheard]
  refine ⟨h.answeredAll ?_ (List.append_nil _) ?_ ?_ hsent hkept, rfl⟩
  · rw [hreader]
    rfl
  · rw [hreader, Transcript.farewell_ended]
    rfl
  · intro hquit
    rw [hreader, Option.some.inj hquit]

/-- A connection that waits for more has answered all it has heard. -/
theorem answeredAll_reading (h : Standing g o arrived taken put c past []) (hsettled : c.Settled o)
    (hreader : c.reader = .reading) (hsent : c.writer.sent = wire (put.map Delivery.item))
    (hkept : ∀ t y, Delivery.reply t y ∈ put → y.command = t.exchange.command) :
    AnsweredAll (Transcript.ofArrivals o.maxBuffer [] arrived) taken put c ∧
      (Transcript.ofArrivals o.maxBuffer [] arrived).ending = none := by
  have hheard : Transcript.ofArrivals o.maxBuffer [] arrived = ⟨past, none, c.buffer⟩ := by
    rw [h.heard_exhausted hsettled.exhausted, hreader]
  rw [hheard]
  refine ⟨h.answeredAll ?_ rfl ?_ (fun hquit => nomatch hquit) hsent hkept, rfl⟩
  · rw [hreader]
    rfl
  · rw [hreader]
    rfl

/-- **A connection with nothing left to do has answered all it has heard**, and is closed exactly if
nothing more is heard. -/
theorem answeredAll_settled (h : Standing g o arrived taken put c past [])
    (hsettled : c.Settled o)
    (hkept : ∀ t y, Delivery.reply t y ∈ put → y.command = t.exchange.command)
    (htimely : Timely put) :
    AnsweredAll (Transcript.ofArrivals o.maxBuffer [] arrived) taken put c ∧
      c.writer.isStopped = (Transcript.ofArrivals o.maxBuffer [] arrived).ending.isSome := by
  have hcases := hsettled
  cases hcases with
  | @ended why hreader hstopped _ =>
      have hclosed := c.writer.isStopped_iff.mpr hstopped
      obtain ⟨hall, hending⟩ :=
        h.answeredAll_finished hreader (h.endedTogether htimely hclosed).sent hkept
      rw [hending]
      exact ⟨hall, hclosed⟩
  | listening hreader _ _ _ _ hwriter =>
      have hopen : c.writer.isStopped = false := by
        rw [Bool.eq_false_iff]
        intro hclosed
        obtain ⟨why, hwhy⟩ := c.isFinished_iff.mp (h.endedTogether htimely hclosed).reader
        rw [hreader] at hwhy
        cases hwhy
      rcases hwriter with hstopped | ⟨hwaiting, hempty⟩
      · rw [c.writer.isStopped_iff.mpr hstopped] at hopen
        cases hopen
      · obtain ⟨hall, hending⟩ := h.answeredAll_reading hsettled hreader
          (h.carried.sent_of_waiting hwaiting hempty).1 hkept
        rw [hending]
        exact ⟨hall, hopen⟩

end Standing

/-! ## Runs -/

namespace Server

/-- What a run did, in either mode, by its ledger and its history. -/
structure RunInAnyOrder (g : Gateway) (o : Connection.Options) (store : Store)
    (run : List Happening) (s : Server) (ledger : List Taken) (history : List (Nat × Delivery)) :
    Prop where
  /-- Every reply is what its command ended with. -/
  replays : Replays g store history s.work.store
  /-- No calls were made but those for the commands taken on. -/
  calls : s.work.calls = ledger.flatMap (Taken.calls g)
  tickets : (ledger.map Taken.ticket).Nodup
  connected : ∀ t ∈ ledger, t.connection < s.connections.length
  /-- Every connection has a session of its own. -/
  accounted : ∀ i c, s.connections[i]? = some c → c.session = UInt64.ofNat (i + 1) ∧
    Accounted g (.ofArrivals o.maxBuffer [] (arrived run i)) (takenOn i ledger) (putOut i history)
      c
  /-- A writer does not shut down before everything has been answered. -/
  stopped : ∀ i c, s.connections[i]? = some c → c.writer.isStopped = true →
    EndedTogether (takenOn i ledger) (putOut i history) c ∧
      (Transcript.ofArrivals o.maxBuffer [] (arrived run i)).ending.isSome = true ∧
      AnsweredAll (.ofArrivals o.maxBuffer [] (arrived run i)) (takenOn i ledger)
        (putOut i history) c
  /-- At rest all has been answered, and the writer has shut down exactly if nothing more is
  heard. -/
  completed : s.AtRest → ∀ i c, s.connections[i]? = some c →
    AnsweredAll (.ofArrivals o.maxBuffer [] (arrived run i)) (takenOn i ledger) (putOut i history)
        c ∧
      c.writer.isStopped = (Transcript.ofArrivals o.maxBuffer [] (arrived run i)).ending.isSome
  /-- Whichever moves the server makes, it comes to rest. -/
  rests : ∀ (moves : List Move) (s' : Server), s.follow? (moves.map .move) = some s' →
    moves.length + s'.effort ≤ s.effort

/-- Replies have the commands that they are for. -/
theorem Books.kept {g : Gateway} {o : Connection.Options} {arrived : Nat → List Arrival}
    {ledger : List Taken} {history : List (Nat × Delivery)} {s : Server} {store store' : Store}
    (h : Books g o arrived ledger history s) (hreplays : Replays g store history store')
    (hkeeps : g.KeepsCommands) {i : Nat} {c : Connection} (hc : s.connections[i]? = some c)
    (t : Taken) (y : Exchange) (hmem : Delivery.reply t y ∈ putOut i history) :
    y.command = t.exchange.command := by
  obtain ⟨-, past, underway, hst⟩ := h.connections i c hc
  obtain ⟨arguments, -, hdecode⟩ := hst.request_heard hmem rfl
  obtain ⟨s₁, s₂, hcomes⟩ := hreplays.comes (mem_putOut.mp hmem)
  exact hcomes.command hkeeps (Exchange.decode_ok hdecode).2.1

/-- **No reply is lost and none is doubled, in whatever order the commands end**: this is so for all
callees that keep commands and whose calls end or are given up, for all clients at once and in
every order of moves. -/
theorem run_in_any_order {g : Gateway} {o : Connection.Options} {store : Store}
    {run : List Happening} {s : Server} (hkeeps : g.KeepsCommands) (hends : g.AlwaysEnds)
    (hrun : (start g o store).follow? run = some s) :
    ∃ ledger history, RunInAnyOrder g o store run s ledger history := by
  obtain ⟨ledger, history, hbooks, hreplays⟩ := books_run hrun
  refine ⟨ledger, history, ?_⟩
  exact
    { replays := hreplays
      calls := hbooks.calls
      tickets := hbooks.tickets_nodup
      connected := fun t => hbooks.connected
      accounted := by
        intro i c hc
        obtain ⟨hsession, past, underway, hst⟩ := hbooks.connections i c hc
        exact ⟨hsession, hst.accounted⟩
      stopped := by
        intro i c hc hstopped
        have hkept := hbooks.kept hreplays hkeeps hc
        obtain ⟨-, past, underway, hst⟩ := hbooks.connections i c hc
        have hended := hst.endedTogether (timely_of_kept hkept) hstopped
        obtain rfl := hst.underway_of_flights hended.flights
        obtain ⟨why, hreader⟩ := c.isFinished_iff.mp hended.reader
        obtain ⟨hall, hending⟩ := hst.answeredAll_finished hreader hended.sent hkept
        exact ⟨hended, by rw [hending]; rfl, hall⟩
      completed := by
        intro hrest i c hc
        have hkept := hbooks.kept hreplays hkeeps hc
        obtain ⟨hsettled, past, hst⟩ := hbooks.settled hends hrest hc
        exact hst.answeredAll_settled hsettled hkept (timely_of_kept hkept)
      rests := fun moves s' => moves_end }

/-- Two clients send a `GET` and a `PING`, and behind them a `QUIT` and what is no request; a third
sends a `PING` and more than there is space for. -/
def overtaken : List Happening :=
  [.accept, .accept, .accept,
    .receive 0 (.bytes (Text.Utf8.ofString "GET k\r\nPING\r\nQUIT\r\n")),
    .receive 1 (.bytes (Text.Utf8.ofString "GET k\r\nPING\r\n*x\r\n")),
    .receive 2 (.bytes (Text.Utf8.ofString "PING\r\nGET aaaaaaaaaaaaa")),
    .move (.reader 0), .move (.reader 0), .move (.reader 0), .move (.reader 0),
    .move (.land 0 1), .move (.land 0 0), .move (.reader 0), .move (.land 0 2), .move (.writer 0),
    .move (.writer 0), .move (.writer 0), .move (.writer 0), .move (.writer 0), .move (.writer 0),
    .move (.writer 0),
    .move (.reader 1), .move (.reader 1), .move (.reader 1), .move (.reader 1),
    .move (.land 1 4), .move (.land 1 3), .move (.writer 1), .move (.writer 1), .move (.writer 1),
    .move (.writer 1), .move (.writer 1), .move (.writer 1), .move (.release 1),
    .move (.writer 1), .move (.writer 1),
    .move (.reader 2), .move (.reader 2), .move (.reader 2), .move (.land 2 5), .move (.writer 2),
    .move (.writer 2), .move (.writer 2), .move (.writer 2), .move (.release 2),
    .move (.writer 2), .move (.writer 2)]

/-- A `GET` is overtaken by a `PING`. A `QUIT` waits for both, but a last line does not. -/
theorem run_in_any_order_overtaken :
    ∃ s, (start { routes := .own } { ordered := false, maxBuffer := 16 } .fresh).follow?
        overtaken = some s ∧
      s.connections.map (·.writer.sent) =
        [Text.Utf8.ofString "+PONG\r\n$-1\r\n+OK\r\n",
          Text.Utf8.ofString
            ("-ERR Protocol error: invalid integer: invalid digit found in string\r\n" ++
              "+PONG\r\n$-1\r\n"),
          Text.Utf8.ofString
            ("-ERR Protocol error: request exceeds max buffer\r\n" ++ "+PONG\r\n")] ∧
      ∃ ledger history,
        RunInAnyOrder { routes := .own } { ordered := false, maxBuffer := 16 } .fresh overtaken s
          ledger history := by
  have hplain : Gateway.Plain { routes := .own } := ⟨rfl, rfl⟩
  have heval : ((start { routes := .own } { ordered := false, maxBuffer := 16 } .fresh).follow?
      overtaken).map (fun s => s.connections.map (·.writer.sent)) =
        some [Text.Utf8.ofString "+PONG\r\n$-1\r\n+OK\r\n",
          Text.Utf8.ofString
            ("-ERR Protocol error: invalid integer: invalid digit found in string\r\n" ++
              "+PONG\r\n$-1\r\n"),
          Text.Utf8.ofString
            ("-ERR Protocol error: request exceeds max buffer\r\n" ++ "+PONG\r\n")] := by
    decide +kernel
  obtain ⟨s, hrun, hsent⟩ := Option.map_eq_some_iff.mp heval
  exact ⟨s, hrun, hsent, run_in_any_order hplain.keepsCommands hplain.alwaysEnds hrun⟩

end Server

end RespGateway
