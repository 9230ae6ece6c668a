import RespGateway.Proofs.Rest

/-!
# Replies in the order of the requests

In ordered mode a client gets exactly one reply for each of its requests, in their order,
up to the first `QUIT`, and behind them at most the one error that ends the connection.
No command of it is taken on that its transcript does not hold, so nothing is done for
what follows a `QUIT`, a malformed request or one that is too large; whatever is called,
is called on its behalf.

`InOrder` says this of every state, `Completed` of a server at rest.
-/

namespace RespGateway

/-! ## Answers to requests -/

/-- Deliveries answer requests one for one, in their order. -/
def Answers (client : UInt64) (requests : List (List Bytes)) (answers : List Delivery) : Prop :=
  List.Forall₂ (fun arguments d => d.request? = some (Exchange.decode client arguments)) requests
    answers

/-- The commands that requests ask for. -/
def commandsOf (client : UInt64) (requests : List (List Bytes)) : List Exchange :=
  requests.filterMap fun arguments => (Exchange.decode client arguments).toOption

theorem commandsOf_append (client : UInt64) (requests later : List (List Bytes)) :
    commandsOf client (requests ++ later) = commandsOf client requests ++ commandsOf client later :=
  List.filterMap_append

theorem commandsOf_eq (client : UInt64) (requests : List (List Bytes)) :
    commandsOf client requests =
      (requests.map (Exchange.decode client)).filterMap Except.toOption := by
  rw [List.filterMap_map]
  rfl

theorem mem_commandsOf {client : UInt64} {requests : List (List Bytes)} {x : Exchange}
    (h : x ∈ commandsOf client requests) :
    ∃ arguments ∈ requests, Exchange.decode client arguments = .ok x := by
  obtain ⟨arguments, harguments, hdecode⟩ := List.mem_filterMap.mp h
  refine ⟨arguments, harguments, ?_⟩
  cases hargs : Exchange.decode client arguments with
  | error why => rw [hargs] at hdecode; cases hdecode
  | ok x' => rw [hargs] at hdecode; cases hdecode; rfl

/-- The commands that were answered are those among the requests that were answered. -/
theorem filterMap_answered (put : List Delivery) :
    (put.filterMap Delivery.request?).filterMap Except.toOption =
      (put.filterMap Delivery.taken?).map Taken.exchange := by
  rw [List.filterMap_filterMap, List.map_filterMap]
  congr 1
  funext d
  cases d <;> rfl

theorem filterMap_farewells (farewells : List Reply) :
    (farewells.map Delivery.farewell).filterMap Delivery.request? = [] := by
  rw [List.filterMap_map]
  simp [Delivery.request?]

/-- What is put out for requests in their order answers the first of them. -/
theorem answers_take {client : UInt64} {answers : List Delivery} {requests : List (List Bytes)}
    (hnone : ∀ d ∈ answers, d.farewell? = none)
    (h : answers.filterMap Delivery.request? <+: requests.map (Exchange.decode client)) :
    Answers client (requests.take answers.length) answers := by
  induction answers generalizing requests with
  | nil => exact .nil
  | cons d answers ih =>
      have hd : ∃ r, d.request? = some r := by
        cases d with
        | refusal why => exact ⟨_, rfl⟩
        | reply t y => exact ⟨_, rfl⟩
        | farewell r => cases hnone _ (List.mem_cons_self ..)
      obtain ⟨r, hr⟩ := hd
      rw [List.filterMap_cons_some hr] at h
      cases requests with
      | nil => simp at h
      | cons arguments requests =>
          rw [List.map_cons, List.cons_prefix_cons] at h
          refine .cons (hr.trans (congrArg some h.1)) (ih ?_ h.2)
          exact fun d' hd' => hnone d' (List.mem_cons_of_mem _ hd')

theorem answers_all {client : UInt64} {answers : List Delivery} {requests : List (List Bytes)}
    (hnone : ∀ d ∈ answers, d.farewell? = none)
    (h : answers.filterMap Delivery.request? = requests.map (Exchange.decode client)) :
    Answers client requests answers := by
  have htake := answers_take hnone ⟨[], (List.append_nil _).trans h⟩
  have hlength : (answers.filterMap Delivery.request?).length ≤ answers.length :=
    List.length_filterMap_le ..
  rw [h, List.length_map] at hlength
  rwa [List.take_of_length_le hlength] at htake

/-- Where two clients have sent the same requests, their answers are related one by one if any two
answers to one request are. -/
theorem Answers.forall₂ {R : Delivery → Delivery → Prop} {client client' : UInt64}
    {requests : List (List Bytes)} {answers answers' : List Delivery}
    (h : Answers client requests answers) (h' : Answers client' requests answers')
    (hR : ∀ arguments ∈ requests, ∀ d d', d.request? = some (Exchange.decode client arguments) →
      d'.request? = some (Exchange.decode client' arguments) → R d d') :
    List.Forall₂ R answers answers' := by
  induction h generalizing answers' with
  | nil =>
      cases h'
      exact .nil
  | @cons arguments d requests answers hd _ ih =>
      cases h' with
      | cons hd' hrest =>
          refine .cons (hR arguments (List.mem_cons_self ..) _ _ hd hd') (ih hrest ?_)
          exact fun later hlater => hR later (List.mem_cons_of_mem _ hlater)

/-! ## Last replies -/

theorem Delivery.Comes.command {g : Gateway} {t : Taken} {y : Exchange} {s s' : Store}
    (h : (Delivery.reply t y).Comes g s s') (hkeeps : g.KeepsCommands)
    (hopen : t.exchange.response = none) : y.command = t.exchange.command := by
  cases h with
  | reply hlaunch hland =>
      obtain ⟨y', hy', -, hcommand⟩ := (launch_outcome hlaunch).land hopen s
      rw [hland] at hy'
      cases hy'
      exact hcommand hkeeps

/-- Of the replies that are put out, those to a `QUIT` are last. -/
theorem Delivery.Comes.isLast {g : Gateway} {d : Delivery} {s s' : Store} (h : d.Comes g s s')
    (hkeeps : g.KeepsCommands) {client : UInt64} {arguments : List Bytes}
    (hd : d.request? = some (Exchange.decode client arguments)) :
    d.item.isLast = asksToQuit arguments := by
  cases d with
  | refusal why =>
      rw [asksToQuit_of_error (Option.some.inj hd).symm]
      rfl
  | reply t y =>
      have hx := (Option.some.inj hd).symm
      have hcommand := h.command hkeeps (Exchange.decode_ok hx).2.1
      rw [Bool.eq_iff_iff, asksToQuit_of_ok hx, ← hcommand]
      simp [Delivery.item, Outgoing.isLast]
  | farewell r => cases hd

theorem untilLast_answers {client : UInt64} {requests : List (List Bytes)}
    {answers : List Delivery} (h : Answers client requests answers)
    (hlast : ∀ d ∈ answers, ∀ arguments, d.request? = some (Exchange.decode client arguments) →
      d.item.isLast = asksToQuit arguments)
    (hproper : upToQuit requests = requests) :
    untilLast (answers.map Delivery.item) = answers.map Delivery.item := by
  induction h with
  | nil => rfl
  | @cons arguments d requests answers hd hall ih =>
      rw [List.map_cons, untilLast, hlast d (List.mem_cons_self ..) arguments hd]
      rw [upToQuit] at hproper
      by_cases hquit : asksToQuit arguments = true
      · rw [if_pos hquit] at hproper ⊢
        cases hproper
        cases hall
        rfl
      · rw [if_neg hquit] at hproper ⊢
        rw [ih (fun d' hd' => hlast d' (List.mem_cons_of_mem _ hd')) (List.cons.inj hproper).2]

theorem answers_none_last {client : UInt64} {requests : List (List Bytes)}
    {answers : List Delivery} (h : Answers client requests answers)
    (hlast : ∀ d ∈ answers, ∀ arguments, d.request? = some (Exchange.decode client arguments) →
      d.item.isLast = asksToQuit arguments)
    (hquit : requests.any asksToQuit = false) : ∀ d ∈ answers, d.item.isLast = false := by
  induction h with
  | nil => simp
  | @cons arguments d requests answers hd _ ih =>
      rw [List.any_cons, Bool.or_eq_false_iff] at hquit
      intro d' hd'
      rcases List.mem_cons.mp hd' with rfl | hd'
      · rw [hlast d' (List.mem_cons_self ..) arguments hd]
        exact hquit.1
      · exact ih (fun d₁ hd₁ => hlast d₁ (List.mem_cons_of_mem _ hd₁)) hquit.2 d' hd'

/-! ## In order -/

/-- What is done for a client of which `said` has been heard: the commands taken on, what is put
out and what is sent. -/
structure InOrder (g : Gateway) (said : Transcript) (taken : List Taken) (put : List Delivery)
    (c : Connection) : Prop where
  /-- Commands are taken on in the order of the requests, each at most once. -/
  commands : taken.map Taken.exchange <+: commandsOf c.session said.requests
  /-- Calls are made for them on behalf of the client. -/
  calls : ∀ t ∈ taken, ∀ call ∈ t.calls g, call.client = c.session
  /-- Only its own commands are replied to. -/
  own : ∀ t y, Delivery.reply t y ∈ put → t ∈ taken
  /-- The requests are answered in their order, each once, and only after all of them the client is
  told why the connection ends. -/
  answers : ∃ answers farewells, put = answers ++ farewells.map Delivery.farewell ∧
    Answers c.session (said.requests.take answers.length) answers ∧
    (farewells = [] ∨ answers.length = said.requests.length ∧ farewells = said.farewell)
  /-- The client receives what is put out, whole and in this order. -/
  sent : ∃ flushed, flushed <+: put.map Delivery.item ∧ c.writer.sent = wire flushed

/-- All that was to be done for a client of which `said` has been heard is done. -/
structure Completed (said : Transcript) (taken : List Taken) (put : List Delivery)
    (c : Connection) : Prop where
  commands : taken.map Taken.exchange = commandsOf c.session said.requests
  /-- Every request is answered once, in order, and then the client is told why the connection
  ends if it is to be told. -/
  answers : ∃ answers, put = answers ++ said.farewell.map Delivery.farewell ∧
    Answers c.session said.requests answers
  sent : c.writer.sent = wire (put.map Delivery.item)
  /-- The server closes exactly if nothing more is heard. -/
  closed : c.writer.isStopped = said.ending.isSome

/-- Where two clients have said the same, what is put out for them is related one by one if any two
answers to one request are. -/
theorem Completed.forall₂ {R : Delivery → Delivery → Prop} {said : Transcript}
    {taken taken' : List Taken} {put put' : List Delivery} {c c' : Connection}
    (h : Completed said taken put c) (h' : Completed said taken' put' c')
    (hR : ∀ arguments ∈ said.requests, ∀ d d',
      d.request? = some (Exchange.decode c.session arguments) →
      d'.request? = some (Exchange.decode c'.session arguments) → R d d')
    (hfarewell : ∀ r, R (.farewell r) (.farewell r)) : List.Forall₂ R put put' := by
  obtain ⟨answers, rfl, hanswers⟩ := h.answers
  obtain ⟨answers', rfl, hanswers'⟩ := h'.answers
  refine List.rel_append (hanswers.forall₂ hanswers' hR) ?_
  rw [List.forall₂_map_left_iff, List.forall₂_map_right_iff]
  exact List.forall₂_same.mpr fun r _ => hfarewell r

namespace Standing

variable {g : Gateway} {o : Connection.Options} {arrived : List Arrival} {taken : List Taken}
  {put : List Delivery} {c : Connection} {past : List (List Bytes)} {underway : List Taken}

/-- The commands taken on are those of the requests that were taken off the stream, but for one that
is held back. -/
theorem commands_past (h : Standing g o arrived taken put c past underway) :
    Arranged o (commandsOf c.session past)
      (taken.map Taken.exchange ++ c.reader.held.filterMap Except.toOption) := by
  have hunderway : (underway.map fun t => (Except.ok t.exchange :
      Except Exchange.Refusal Exchange)).filterMap Except.toOption =
        underway.map Taken.exchange := by
    rw [List.filterMap_map]
    exact congrFun List.filterMap_eq_map underway
  have hopened := h.opened.filterMap Except.toOption
  rw [List.filterMap_append, List.filterMap_append, filterMap_answered, hunderway,
    ← List.map_append] at hopened
  rw [commandsOf_eq]
  exact hopened.trans ((h.ends.symm.map Taken.exchange).append_right _)

/-- Whatever is called for a command that was taken on is called on behalf of the client. -/
theorem call_client (h : Standing g o arrived taken put c past underway) {t : Taken}
    (ht : t ∈ taken) {call : Call} (hcall : call ∈ t.calls g) : call.client = c.session := by
  have hx : t.exchange ∈ commandsOf c.session past :=
    h.commands_past.perm.mem_iff.mpr (List.mem_append_left _ (List.mem_map_of_mem ht))
  obtain ⟨arguments, -, hdecode⟩ := mem_commandsOf hx
  rw [launch_call_client (Option.mem_toList.mp hcall)]
  exact (Exchange.decode_ok hdecode).1

theorem own (h : Standing g o arrived taken put c past underway) {t : Taken} {y : Exchange}
    (hmem : Delivery.reply t y ∈ put) : t ∈ taken := by
  refine h.ends.perm.mem_iff.mpr (List.mem_append_left _ ?_)
  exact List.mem_filterMap.mpr ⟨_, hmem, rfl⟩

/-- **In ordered mode everything is done in the order of the requests.** -/
theorem inOrder (h : Standing g o arrived taken put c past underway) (ho : o.ordered = true) :
    InOrder g (Transcript.ofArrivals o.maxBuffer [] arrived) taken put c := by
  have hcommands : taken.map Taken.exchange <+:
      commandsOf c.session (Transcript.ofArrivals o.maxBuffer [] arrived).requests := by
    rw [h.requests_now, commandsOf_append, h.commands_past.eq ho, List.append_assoc]
    exact List.prefix_append ..
  refine ⟨hcommands, fun t ht call hcall => h.call_client ht hcall, fun t y => h.own, ?_, ?_⟩
  · obtain ⟨answers, hanswers, hput⟩ := h.parted ho
    have hopened := h.opened.eq ho
    rw [hput, List.filterMap_append, filterMap_farewells, List.append_nil] at hopened
    have hpast : answers.filterMap Delivery.request? <+: past.map (Exchange.decode c.session) := by
      rw [hopened, List.append_assoc]
      exact List.prefix_append ..
    refine ⟨answers, c.reader.told, hput, ?_, ?_⟩
    · refine answers_take hanswers (hpast.trans ?_)
      rw [h.requests_now, List.map_append]
      exact List.prefix_append ..
    · cases hreader : c.reader with
      | finished why =>
          -- a reader ends only when no command is under way, so everything has been answered
          right
          have hstage := h.stage
          rw [hreader] at hstage hopened
          obtain rfl := hstage.1.ordered ho
          have hall := answers_all hanswers (by simpa [Reader.held] using hopened.symm)
          rw [h.heard_now, Connection.outlook, hreader]
          refine ⟨?_, (Transcript.farewell_ended past why).symm⟩
          simpa [Transcript.after, Transcript.ended] using hall.length_eq.symm
      | _ => exact Or.inl rfl
  · obtain ⟨flushed, hflushed, hsent⟩ := h.carried.sent_partly
    exact ⟨flushed, hflushed.trans (prefix_untilLast _), hsent⟩

/-- In ordered mode all requests have been answered where no command is under way. -/
theorem answered_all (h : Standing g o arrived taken put c past []) (ho : o.ordered = true)
    (hsettled : c.Settled o) :
    ∃ answers, put = answers ++ c.reader.told.map Delivery.farewell ∧
      Answers c.session past answers := by
  have hanswered := (h.answered hsettled.exhausted).eq ho
  obtain ⟨answers, hanswers, hput⟩ := h.parted ho
  rw [hput, List.filterMap_append, filterMap_farewells, List.append_nil] at hanswered
  exact ⟨answers, hput, answers_all hanswers hanswered.symm⟩

/-- A connection that waits for more has answered all it has heard. -/
theorem completed_listening (h : Standing g o arrived taken put c past []) (ho : o.ordered = true)
    (hsettled : c.Settled o) (hreader : c.reader = .reading)
    (hlast : ∀ d ∈ put, ∀ arguments, d.request? = some (Exchange.decode c.session arguments) →
      d.item.isLast = asksToQuit arguments) :
    Completed (Transcript.ofArrivals o.maxBuffer [] arrived) taken put c := by
  have hproper : (Transcript.ofArrivals o.maxBuffer [] arrived).Proper :=
    Transcript.ofArrivals_proper arrived []
  have hcommands := h.commands_past.eq ho
  obtain ⟨answers, hput, hall⟩ := h.answered_all ho hsettled
  rw [h.heard_exhausted hsettled.exhausted, hreader] at hproper ⊢
  rw [hreader] at hput hcommands
  simp only [Reader.told, List.map_nil, List.append_nil] at hput
  subst hput
  have hquit : past.any asksToQuit = false := by
    cases hany : past.any asksToQuit with
    | false => rfl
    | true => cases hproper.quits hany
  have hnone := answers_none_last hall hlast hquit
  cases hsettled with
  | ended hreader' _ _ =>
      rw [hreader] at hreader'
      cases hreader'
  | listening _ _ _ _ hsenders hwriter =>
      rcases hwriter with hstopped | ⟨hwaiting, hempty⟩
      · -- a writer stops by itself only after a last reply, and none was put out
        obtain ⟨item, hitem, hl⟩ := h.carried.last_of_stopped hstopped hsenders
        obtain ⟨d, hd, rfl⟩ := List.mem_map.mp hitem
        rw [hnone d hd] at hl
        cases hl
      · refine ⟨?_, ⟨put, by simp [Transcript.farewell], hall⟩,
          (h.carried.sent_of_waiting hwaiting hempty).1, by simp [Writer.isStopped, hwaiting]⟩
        rw [hcommands]
        simp [Reader.held]

/-- The writer sends all answers and what the client is told behind them: of all these only the
last can end it. -/
theorem untilLast_completed {why : Departure} {answers : List Delivery}
    (hproper : ((Transcript.ended why).after past).Proper)
    (hall : Answers c.session past answers)
    (hlast : ∀ d ∈ answers, ∀ arguments, d.request? = some (Exchange.decode c.session arguments) →
      d.item.isLast = asksToQuit arguments) :
    untilLast ((answers ++ (Reader.finished why).told.map Delivery.farewell).map Delivery.item) =
      (answers ++ (Reader.finished why).told.map Delivery.farewell).map Delivery.item := by
  have hrequests : ((Transcript.ended why).after past).requests = past := List.append_nil _
  have hlasts := hproper.last
  rw [hrequests] at hlasts
  cases htold : why.told with
  | none =>
      simp only [Reader.told, htold, Option.toList_none, List.map_nil, List.append_nil]
      exact untilLast_answers hall hlast hlasts
  | some r =>
      -- after a QUIT the client is told nothing
      have hquit : past.any asksToQuit = false := by
        cases hany : past.any asksToQuit with
        | false => rfl
        | true =>
            have hwhy := hproper.quits (hrequests.symm ▸ hany)
            cases hwhy
            cases htold
      refine untilLast_of_none ?_
      intro item hitem
      obtain ⟨d, hd, rfl⟩ := List.mem_map.mp hitem
      rcases List.mem_append.mp hd with hd | hd
      · exact answers_none_last hall hlast hquit d hd
      · obtain ⟨r', -, rfl⟩ := List.mem_map.mp hd
        rfl

/-- A connection that has ended has answered all it has heard. -/
theorem completed_ended (h : Standing g o arrived taken put c past []) (ho : o.ordered = true)
    (hsettled : c.Settled o) {why : Departure} (hreader : c.reader = .finished why)
    (hlast : ∀ d ∈ put, ∀ arguments, d.request? = some (Exchange.decode c.session arguments) →
      d.item.isLast = asksToQuit arguments) :
    Completed (Transcript.ofArrivals o.maxBuffer [] arrived) taken put c := by
  have hproper : (Transcript.ofArrivals o.maxBuffer [] arrived).Proper :=
    Transcript.ofArrivals_proper arrived []
  have hcommands := h.commands_past.eq ho
  obtain ⟨answers, hput, hall⟩ := h.answered_all ho hsettled
  rw [h.heard_exhausted hsettled.exhausted, hreader] at hproper ⊢
  rw [hreader] at hput hcommands
  have hrequests : ((Transcript.ended why).after past).requests = past := List.append_nil _
  cases hsettled with
  | listening hreader' _ _ _ _ _ =>
      rw [hreader] at hreader'
      cases hreader'
  | ended _ hstopped _ =>
      have hclosed : c.writer.isStopped = true := by rw [Writer.isStopped, hstopped]; rfl
      refine ⟨?_, ⟨answers, ?_, ?_⟩, ?_, hclosed⟩
      · rw [hrequests, hcommands]
        simp [Reader.held]
      · rw [Transcript.farewell_ended]
        exact hput
      · rw [hrequests]
        exact hall
      · rw [h.carried.sent_of_stopped hstopped, hput]
        congr 1
        refine untilLast_completed hproper hall fun d hd => hlast d ?_
        rw [hput]
        exact List.mem_append_left _ hd

/-- **In ordered mode a connection with nothing left to do has done all.** -/
theorem completed (h : Standing g o arrived taken put c past []) (ho : o.ordered = true)
    (hsettled : c.Settled o)
    (hlast : ∀ d ∈ put, ∀ arguments, d.request? = some (Exchange.decode c.session arguments) →
      d.item.isLast = asksToQuit arguments) :
    Completed (Transcript.ofArrivals o.maxBuffer [] arrived) taken put c := by
  have hcases := hsettled
  cases hcases with
  | listening hreader _ _ _ _ _ => exact h.completed_listening ho hsettled hreader hlast
  | ended hreader _ _ => exact h.completed_ended ho hsettled hreader hlast

end Standing

/-! ## Runs in ordered mode -/

namespace Server

/-- What a run in ordered mode did, by its ledger and its history. -/
structure RunInOrder (g : Gateway) (o : Connection.Options) (store : Store)
    (run : List Happening) (s : Server) (ledger : List Taken) (history : List (Nat × Delivery)) :
    Prop where
  /-- Every reply is what its command ended with. -/
  replays : Replays g store history s.work.store
  /-- No calls were made but those for the commands taken on. -/
  calls : s.work.calls = ledger.flatMap (Taken.calls g)
  tickets : (ledger.map Taken.ticket).Nodup
  connected : ∀ t ∈ ledger, t.connection < s.connections.length
  /-- Every connection has a session of its own, and its client is served in order. -/
  inOrder : ∀ i c, s.connections[i]? = some c → c.session = UInt64.ofNat (i + 1) ∧
    InOrder g (.ofArrivals o.maxBuffer [] (arrived run i)) (takenOn i ledger) (putOut i history) c
  /-- At rest all has been done. -/
  completed : s.AtRest → ∀ i c, s.connections[i]? = some c →
    Completed (.ofArrivals o.maxBuffer [] (arrived run i)) (takenOn i ledger) (putOut i history) c
  /-- Whichever moves the server makes, it comes to rest. -/
  rests : ∀ (moves : List Move) (s' : Server), s.follow? (moves.map .move) = some s' →
    moves.length + s'.effort ≤ s.effort

theorem Books.connected {g : Gateway} {o : Connection.Options} {arrived : Nat → List Arrival}
    {ledger : List Taken} {history : List (Nat × Delivery)} {s : Server}
    (h : Books g o arrived ledger history s) {t : Taken} (ht : t ∈ ledger) :
    t.connection < s.connections.length := by
  refine Nat.lt_of_not_le fun hle => ?_
  have hnone := (h.absent t.connection hle).2.1
  have hmem : t ∈ takenOn t.connection ledger :=
    List.mem_filter.mpr ⟨ht, beq_self_eq_true t.connection⟩
  rw [hnone] at hmem
  cases hmem

section

variable {g : Gateway} {o : Connection.Options} {arrived : Nat → List Arrival}
  {ledger : List Taken} {history : List (Nat × Delivery)} {s : Server} {store store' : Store}
  {i : Nat} {c : Connection}

/-- All that was to be done for a client is done where no move of its connection is possible. -/
theorem Books.completedAt (h : Books g o arrived ledger history s)
    (hreplays : Replays g store history store') (ho : o.ordered = true)
    (hkeeps : g.KeepsCommands) (hends : g.AlwaysEnds) (hstill : s.StillAt i)
    (hc : s.connections[i]? = some c) :
    Completed (.ofArrivals o.maxBuffer [] (arrived i)) (takenOn i ledger) (putOut i history) c := by
  obtain ⟨hsettled, past, hst⟩ := h.settledAt hends hstill hc
  refine hst.completed ho hsettled ?_
  intro d hd arguments hanswers
  obtain ⟨s₁, s₂, hcomes⟩ := hreplays.comes (mem_putOut.mp hd)
  exact hcomes.isLast hkeeps hanswers

/-- At rest all that was to be done for a client is done. -/
theorem Books.completed (h : Books g o arrived ledger history s)
    (hreplays : Replays g store history store') (ho : o.ordered = true)
    (hkeeps : g.KeepsCommands) (hends : g.AlwaysEnds) (hrest : s.AtRest)
    (hc : s.connections[i]? = some c) :
    Completed (.ofArrivals o.maxBuffer [] (arrived i)) (takenOn i ledger) (putOut i history) c :=
  h.completedAt hreplays ho hkeeps hends (hrest.still i) hc

end

/-- **In ordered mode every request is answered exactly once, in order and on its own
connection**, for all callees that keep commands and whose calls end or are given up, for all
clients at once and in every order of moves. -/
theorem run_in_order {g : Gateway} {o : Connection.Options} {store : Store}
    {run : List Happening} {s : Server} (ho : o.ordered = true) (hkeeps : g.KeepsCommands)
    (hends : g.AlwaysEnds) (hrun : (start g o store).follow? run = some s) :
    ∃ ledger history, RunInOrder g o store run s ledger history := by
  obtain ⟨ledger, history, hbooks, hreplays⟩ := books_run hrun
  refine ⟨ledger, history, ?_⟩
  exact
    { replays := hreplays
      calls := hbooks.calls
      tickets := hbooks.tickets_nodup
      connected := fun t => hbooks.connected
      inOrder := by
        intro i c hc
        obtain ⟨hsession, past, underway, hst⟩ := hbooks.connections i c hc
        exact ⟨hsession, hst.inOrder ho⟩
      completed := by
        intro hrest i c hc
        exact hbooks.completed hreplays ho hkeeps hends hrest hc
      rests := fun moves s' => moves_end }

/-- Three clients send a `PING`, and behind it a `QUIT`, what is no request, and more than there is
space for. -/
def pipelined : List Happening :=
  [.accept, .accept, .accept,
    .receive 0 (.bytes (Text.Utf8.ofString "PING\r\nQUIT\r\nP")),
    .receive 1 (.bytes (Text.Utf8.ofString "PING\r\n*x\r\n")),
    .receive 2 (.bytes (Text.Utf8.ofString "PING\r\nGET aaaaaaaaaaaaa")),
    .move (.reader 0), .move (.reader 0), .move (.land 0 0), .move (.reader 0), .move (.reader 0),
    .move (.writer 0), .move (.writer 0), .move (.land 0 1), .move (.writer 0), .move (.writer 0),
    .move (.reader 1), .move (.reader 1), .move (.land 1 2), .move (.reader 1), .move (.writer 1),
    .move (.writer 1), .move (.writer 1), .move (.writer 1), .move (.release 1), .move (.writer 1),
    .move (.writer 1),
    .move (.reader 2), .move (.reader 2), .move (.land 2 3), .move (.reader 2), .move (.writer 2),
    .move (.writer 2), .move (.writer 2), .move (.writer 2), .move (.release 2), .move (.writer 2),
    .move (.writer 2)]

/-- Each is answered, and told behind that why it is not heard any more. -/
theorem run_in_order_pipelined :
    ∃ s, (start { routes := .own } { maxBuffer := 16 } .fresh).follow? pipelined = some s ∧
      s.connections.map (·.writer.sent) =
        [Text.Utf8.ofString "+PONG\r\n+OK\r\n",
          Text.Utf8.ofString ("+PONG\r\n" ++
            "-ERR Protocol error: invalid integer: invalid digit found in string\r\n"),
          Text.Utf8.ofString ("+PONG\r\n" ++
            "-ERR Protocol error: request exceeds max buffer\r\n")] ∧
      ∃ ledger history,
        RunInOrder { routes := .own } { maxBuffer := 16 } .fresh pipelined s ledger history := by
  have hplain : Gateway.Plain { routes := .own } := ⟨rfl, rfl⟩
  have heval : ((start { routes := .own } { maxBuffer := 16 } .fresh).follow? pipelined).map
      (fun s => s.connections.map (·.writer.sent)) =
        some [Text.Utf8.ofString "+PONG\r\n+OK\r\n",
          Text.Utf8.ofString ("+PONG\r\n" ++
            "-ERR Protocol error: invalid integer: invalid digit found in string\r\n"),
          Text.Utf8.ofString ("+PONG\r\n" ++
            "-ERR Protocol error: request exceeds max buffer\r\n")] := by
    decide +kernel
  obtain ⟨s, hrun, hsent⟩ := Option.map_eq_some_iff.mp heval
  exact ⟨s, hrun, hsent, run_in_order rfl hplain.keepsCommands hplain.alwaysEnds hrun⟩

end Server

end RespGateway
