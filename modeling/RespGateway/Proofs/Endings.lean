import RespGateway.Proofs.AnyOrder
import RespGateway.Proofs.Pieces

/-!
# How a connection ends

Five things end a connection: a `QUIT`, bytes that are no request, a buffer that is too
full to read on, an end of input between two requests and one inside a request. They are
told by the stream alone. `EndsWith` says of what has been read whether the connection
ends with it, behind which requests and why; `FirstEnding` goes through the reads of a
stream up to the first after which it does.

A reader comes to that ending and to no other (`ofArrivals_eq_ended_iff`), and a connection
ends by its reader (`run_ending`). What the commands do, and what they are answered, does
not matter.
-/

namespace RespGateway

open Request (decode)

/-! ## Requests that have been heard -/

/-- The requests `past` stand at the front of a stream, none of them a `QUIT`, and `rest` behind
them. -/
inductive Heard : Bytes → List (List Bytes) → Bytes → Prop where
  | nothing (stream : Bytes) : Heard stream [] stream
  | request {stream rest : Bytes} {arguments : List Bytes} {consumed : Nat}
      {past : List (List Bytes)} :
      decode stream = .complete arguments consumed → asksToQuit arguments = false →
        Heard (stream.drop consumed) past rest → Heard stream (arguments :: past) rest

/-- More may stand behind. -/
theorem Heard.append {stream rest : Bytes} {past : List (List Bytes)} (h : Heard stream past rest)
    (t : Bytes) : Heard (stream ++ t) past (rest ++ t) := by
  induction h with
  | nothing stream => exact .nothing _
  | @request stream rest arguments consumed past hd hquit _ ih =>
      have hle := (Request.decode_complete hd).2.1
      rw [← List.drop_append_of_le_length hle] at ih
      exact .request (Request.decode_append_complete hd t) hquit ih

/-! ## What ends a connection -/

/-- A connection of whose stream `read` has been read ends with that, behind the requests given.
Nothing more comes if `closed`. -/
inductive EndsWith (maxBuffer : Nat) (closed : Bool) (read : Bytes) :
    List (List Bytes) → Departure → Prop where
  /-- A `QUIT` is the last request, whatever stands behind it. -/
  | quit {past : List (List Bytes)} {rest : Bytes} {arguments : List Bytes} {consumed : Nat} :
      Heard read past rest → decode rest = .complete arguments consumed →
        asksToQuit arguments = true → EndsWith maxBuffer closed read (past ++ [arguments]) .quit
  /-- Where a request should begin, none can. -/
  | malformed {past : List (List Bytes)} {rest : Bytes} {fault : Request.Fault} :
      Heard read past rest → decode rest = .malformed fault →
        EndsWith maxBuffer closed read past (.troubled (.malformed fault))
  /-- More is needed, and what there is leaves no space for it. -/
  | oversized {past : List (List Bytes)} {rest : Bytes} :
      Heard read past rest → decode rest = .incomplete → maxBuffer ≤ rest.length →
        EndsWith maxBuffer closed read past (.troubled .oversized)
  /-- Nothing more comes, between two requests. -/
  | left {past : List (List Bytes)} :
      Heard read past [] → 0 < maxBuffer → closed = true → EndsWith maxBuffer closed read past .left
  /-- Nothing more comes, inside a request. -/
  | cutShort {past : List (List Bytes)} {rest : Bytes} :
      Heard read past rest → decode rest = .incomplete → rest ≠ [] → rest.length < maxBuffer →
        closed = true → EndsWith maxBuffer closed read past (.troubled .cutShort)

/-- The first read after which a connection ends, of those that follow `read`. -/
inductive FirstEnding (maxBuffer : Nat) (closed : Bool) :
    Bytes → List Bytes → List (List Bytes) → Departure → Prop where
  | now {read : Bytes} {pieces : List Bytes} {past : List (List Bytes)} {why : Departure} :
      EndsWith maxBuffer (closed && pieces.isEmpty) read past why →
        FirstEnding maxBuffer closed read pieces past why
  | later {read piece : Bytes} {pieces : List Bytes} {past : List (List Bytes)}
      {why : Departure} :
      (∀ past why, ¬EndsWith maxBuffer false read past why) →
        FirstEnding maxBuffer closed (read ++ piece) pieces past why →
        FirstEnding maxBuffer closed read (piece :: pieces) past why

/-- A reader of what has been read asks for more. -/
structure Asks (maxBuffer : Nat) (read : Bytes) (past : List (List Bytes)) (rest : Bytes) :
    Prop where
  heard : Heard read past rest
  undecided : decode rest = .incomplete
  room : rest.length < maxBuffer

/-! ## What a reader makes of it -/

namespace Transcript

variable {maxBuffer : Nat} {closed : Bool} {read rest : Bytes} {past : List (List Bytes)}
  {why : Departure}

theorem ofArrivals_heard (h : Heard read past rest) (arrivals : List Arrival) :
    ofArrivals maxBuffer read arrivals = (ofArrivals maxBuffer rest arrivals).after past := by
  induction h with
  | nothing stream => rfl
  | request hd hquit _ ih =>
      rw [ofArrivals_request hd, if_neg (by rw [hquit]; decide), ih, after_after]
      rfl

theorem ofArrivals_asks (h : Asks maxBuffer read past rest) (arrivals : List Arrival) :
    ofArrivals maxBuffer read arrivals = (further maxBuffer arrivals rest).after past := by
  have hroom : ¬maxBuffer ≤ rest.length := Nat.not_le.mpr h.room
  rw [ofArrivals_heard h.heard, ofArrivals_incomplete h.undecided, if_neg hroom]

/-- A reader that asks for more goes on as if it had read it all at once. -/
theorem ofArrivals_read (h : Asks maxBuffer read past rest) (piece : Bytes)
    (later : List Arrival) :
    ofArrivals maxBuffer read (.bytes piece :: later) =
      ofArrivals maxBuffer (read ++ piece) later := by
  rw [ofArrivals_asks h, ofArrivals_heard (h.heard.append piece)]
  rfl

theorem requests_ended (past : List (List Bytes)) (why : Departure) :
    ((ended why).after past).requests = past := List.append_nil past

theorem after_ended_inj {past' : List (List Bytes)} {why' : Departure}
    (h : (ended why).after past = (ended why').after past') : past = past' ∧ why = why' := by
  have hrequests := congrArg Transcript.requests h
  rw [requests_ended, requests_ended] at hrequests
  exact ⟨hrequests, Option.some.inj (congrArg Transcript.ending h)⟩

/-- **A reader ends as the stream says.** -/
theorem ofArrivals_endsWith (h : EndsWith maxBuffer closed read past why) {arrivals : List Arrival}
    (hclosed : closed = true → ∃ later, arrivals = .endOfInput :: later) :
    ofArrivals maxBuffer read arrivals = (ended why).after past := by
  cases h with
  | quit hheard hd hquit =>
      rw [ofArrivals_heard hheard, ofArrivals_request hd, if_pos hquit, after_after]
  | malformed hheard hd => rw [ofArrivals_heard hheard, ofArrivals_malformed hd]
  | oversized hheard hd hfull =>
      rw [ofArrivals_heard hheard, ofArrivals_incomplete hd, if_pos hfull]
  | left hheard hroom htrue =>
      obtain ⟨later, rfl⟩ := hclosed htrue
      rw [ofArrivals_asks ⟨hheard, Request.decode_nil, hroom⟩]
      rfl
  | cutShort hheard hd hne hroom htrue =>
      obtain ⟨later, rfl⟩ := hclosed htrue
      rw [ofArrivals_asks ⟨hheard, hd, hroom⟩, further,
        if_neg fun hempty => hne (List.isEmpty_iff.mp hempty)]

/-- What ends a connection while more may come ends it whatever comes. -/
theorem ofArrivals_ended (h : EndsWith maxBuffer false read past why) (arrivals : List Arrival) :
    ofArrivals maxBuffer read arrivals = (ended why).after past :=
  ofArrivals_endsWith h fun hfalse => by cases hfalse

end Transcript

/-- What ends a connection behind the first request ends it. -/
theorem EndsWith.behind {maxBuffer : Nat} {closed : Bool} {read : Bytes}
    {past : List (List Bytes)} {why : Departure} {arguments : List Bytes} {consumed : Nat}
    (h : EndsWith maxBuffer closed (read.drop consumed) past why)
    (hd : decode read = .complete arguments consumed) (hquit : asksToQuit arguments = false) :
    EndsWith maxBuffer closed read (arguments :: past) why := by
  cases h with
  | quit hheard hlast hends => exact .quit (.request hd hquit hheard) hlast hends
  | malformed hheard hbad => exact .malformed (.request hd hquit hheard) hbad
  | oversized hheard hopen hfull => exact .oversized (.request hd hquit hheard) hopen hfull
  | left hheard hroom htrue => exact .left (.request hd hquit hheard) hroom htrue
  | cutShort hheard hopen hne hroom htrue =>
      exact .cutShort (.request hd hquit hheard) hopen hne hroom htrue

/-- A connection ends with what has been read, or its reader asks for more. -/
theorem endsWith_or_asks (maxBuffer : Nat) (read : Bytes) :
    (∃ past why, EndsWith maxBuffer false read past why) ∨
      ∃ past rest, Asks maxBuffer read past rest := by
  induction read using Request.drain_induction with
  | complete read arguments consumed hd ih =>
      cases hquit : asksToQuit arguments with
      | true => exact Or.inl ⟨_, _, .quit (.nothing read) hd hquit⟩
      | false =>
          rcases ih with ⟨past, why, hends⟩ | ⟨past, rest, hasks⟩
          · exact Or.inl ⟨_, _, hends.behind hd hquit⟩
          · exact Or.inr ⟨_, rest, .request hd hquit hasks.heard, hasks.undecided, hasks.room⟩
  | incomplete read hd =>
      by_cases hfull : maxBuffer ≤ read.length
      · exact Or.inl ⟨_, _, .oversized (.nothing read) hd hfull⟩
      · exact Or.inr ⟨_, read, .nothing read, hd, Nat.lt_of_not_le hfull⟩
  | malformed read fault hd => exact Or.inl ⟨_, _, .malformed (.nothing read) hd⟩

/-- What ends a connection while more may come ends it where nothing more comes. -/
theorem EndsWith.closed {maxBuffer : Nat} {read : Bytes} {past : List (List Bytes)}
    {why : Departure} (h : EndsWith maxBuffer false read past why) {closed : Bool} :
    EndsWith maxBuffer closed read past why := by
  cases h with
  | quit hheard hlast hends => exact .quit hheard hlast hends
  | malformed hheard hbad => exact .malformed hheard hbad
  | oversized hheard hopen hfull => exact .oversized hheard hopen hfull
  | left _ _ hfalse => cases hfalse
  | cutShort _ _ _ _ hfalse => cases hfalse

/-- A reader asks for more only where the connection does not end. -/
theorem Asks.not_endsWith {maxBuffer : Nat} {read rest : Bytes} {past : List (List Bytes)}
    (h : Asks maxBuffer read past rest) (past' : List (List Bytes)) (why : Departure) :
    ¬EndsWith maxBuffer false read past' why := by
  intro hends
  have hended := Transcript.ofArrivals_ended hends []
  rw [Transcript.ofArrivals_asks h] at hended
  cases congrArg Transcript.ending hended

/-- Where a reader asks for more and nothing comes, the connection ends. -/
theorem Asks.endsWith {maxBuffer : Nat} {read rest : Bytes} {past : List (List Bytes)}
    (h : Asks maxBuffer read past rest) : ∃ why, EndsWith maxBuffer true read past why := by
  by_cases hempty : rest = []
  · have hheard := h.heard
    have hroom := h.room
    rw [hempty] at hheard hroom
    exact ⟨_, .left hheard hroom rfl⟩
  · exact ⟨_, .cutShort h.heard h.undecided hempty h.room rfl⟩

namespace Transcript

open Server (piecewise)

variable {maxBuffer : Nat} {closed : Bool} {read : Bytes} {pieces : List Bytes}
  {past : List (List Bytes)} {why : Departure}

theorem piecewise_cons (piece : Bytes) (pieces : List Bytes) (closed : Bool) :
    piecewise (piece :: pieces) closed = .bytes piece :: piecewise pieces closed := rfl

/-- A reader comes to the first ending of what it reads. -/
theorem ofArrivals_firstEnding (h : FirstEnding maxBuffer closed read pieces past why) :
    ofArrivals maxBuffer read (piecewise pieces closed) = (ended why).after past := by
  induction h with
  | @now read pieces past why hends =>
      refine ofArrivals_endsWith hends fun htrue => ?_
      rw [Bool.and_eq_true, List.isEmpty_iff] at htrue
      obtain ⟨rfl, rfl⟩ := htrue
      exact ⟨[], rfl⟩
  | @later read piece pieces past why hnone _ ih =>
      rcases endsWith_or_asks maxBuffer read with ⟨past', why', hends⟩ | ⟨past', rest, hasks⟩
      · exact absurd hends (hnone past' why')
      · rw [piecewise_cons, ofArrivals_read hasks]
        exact ih

/-- A stream has one first ending at most. -/
theorem firstEnding_unique {past' : List (List Bytes)} {why' : Departure}
    (h : FirstEnding maxBuffer closed read pieces past why)
    (h' : FirstEnding maxBuffer closed read pieces past' why') : past = past' ∧ why = why' := by
  have hsaid := ofArrivals_firstEnding h
  rw [ofArrivals_firstEnding h'] at hsaid
  exact after_ended_inj hsaid.symm

/-- A stream has a first ending, or it has been heard to its end and more may come. -/
theorem firstEnding_or_asks (maxBuffer : Nat) (closed : Bool) (read : Bytes)
    (pieces : List Bytes) :
    (∃ past why, FirstEnding maxBuffer closed read pieces past why) ∨
      closed = false ∧ ∃ past rest, Asks maxBuffer (read ++ pieces.flatten) past rest ∧
        ofArrivals maxBuffer read (piecewise pieces closed) = ⟨past, none, rest⟩ := by
  -- after each read the connection ends, or its reader asks for more
  induction pieces generalizing read with
  | nil =>
      rcases endsWith_or_asks maxBuffer read with ⟨past, why, hends⟩ | ⟨past, rest, hasks⟩
      · exact Or.inl ⟨past, why, .now hends.closed⟩
      · cases closed with
        | true =>
            obtain ⟨why, hends⟩ := hasks.endsWith
            exact Or.inl ⟨past, why, .now hends⟩
        | false =>
            refine Or.inr ⟨rfl, past, rest, ?_, ?_⟩
            · rwa [List.flatten_nil, List.append_nil]
            · rw [ofArrivals_asks hasks]
              simp [piecewise, further, after]
  | cons piece pieces ih =>
      rcases endsWith_or_asks maxBuffer read with ⟨past, why, hends⟩ | ⟨past, rest, hasks⟩
      · refine Or.inl ⟨past, why, .now ?_⟩
        rwa [List.isEmpty_cons, Bool.and_false]
      · have hnone := hasks.not_endsWith
        rcases ih (read ++ piece) with ⟨past', why, hends⟩ | ⟨hopen, past', rest', hasks', hsaid⟩
        · exact Or.inl ⟨past', why, .later hnone hends⟩
        · refine Or.inr ⟨hopen, past', rest', ?_, ?_⟩
          · rwa [List.flatten_cons, ← List.append_assoc]
          · rw [piecewise_cons, ofArrivals_read hasks, hsaid]

/-- **A reader ends with a stream exactly as the stream first ends**, and has heard the requests up
to there. -/
theorem ofArrivals_eq_ended_iff :
    ofArrivals maxBuffer read (piecewise pieces closed) = (ended why).after past ↔
      FirstEnding maxBuffer closed read pieces past why := by
  constructor
  · intro h
    -- the reader comes to some first ending, which is the one that it has come to
    rcases firstEnding_or_asks maxBuffer closed read pieces with
      ⟨past', why', hends⟩ | ⟨-, past', rest, -, hsaid⟩
    · rw [ofArrivals_firstEnding hends] at h
      obtain ⟨rfl, rfl⟩ := after_ended_inj h
      exact hends
    · rw [hsaid] at h
      cases congrArg Transcript.ending h
  · exact ofArrivals_firstEnding

theorem ending_iff :
    (ofArrivals maxBuffer read (piecewise pieces closed)).ending = some why ↔
      ∃ past, FirstEnding maxBuffer closed read pieces past why := by
  constructor
  · intro h
    rcases firstEnding_or_asks maxBuffer closed read pieces with
      ⟨past, why', hends⟩ | ⟨-, past, rest, -, hsaid⟩
    · rw [ofArrivals_firstEnding hends] at h
      obtain rfl : why' = why := Option.some.inj h
      exact ⟨past, hends⟩
    · rw [hsaid] at h
      cases h
  · rintro ⟨past, hends⟩
    rw [ofArrivals_firstEnding hends]
    rfl

end Transcript

/-! ## The end of a connection -/

/-- Without trouble a connection ends by a `QUIT` or between two requests. -/
theorem trouble?_eq_none_iff (why : Departure) :
    why.trouble? = none ↔ why = .quit ∨ why = .left := by
  cases why <;> simp [Departure.trouble?]

/-- A connection has ended behind these requests, and all that belongs to it is done. -/
structure Concluded (past : List (List Bytes)) (why : Departure) (taken : List Taken)
    (put : List Delivery) (c : Connection) : Prop where
  departure : c.departure? = some why
  departed : c.departed = true
  stopped : c.writer.isStopped = true
  /-- No command was taken on but those of the requests before the end. -/
  commands : (commandsOf c.session past).Perm (taken.map Taken.exchange)
  /-- Each of the requests is answered once, and nothing else is written but the last line. -/
  answers : ∃ answers, Answers c.session past answers ∧
    put.Perm (answers ++ (why.lastLine?.map (.farewell <| .error ·)).toList)
  sent : c.writer.sent = wire (put.map Delivery.item)

/-- How connection `i` ends whose client sends these pieces, and no more after them if `closed`. -/
structure EndsAtFirst (o : Connection.Options) (pieces : List Bytes) (closed : Bool) (s : Server)
    (i : Nat) (taken : List Taken) (put : List Delivery) (c : Connection) : Prop where
  /-- At no time has it ended for another reason than the first. -/
  only : ∀ why, c.departure? = some why →
    ∃ past, FirstEnding o.maxBuffer closed [] pieces past why
  /-- There is one first ending at most. -/
  unique : ∀ past why past' why', FirstEnding o.maxBuffer closed [] pieces past why →
    FirstEnding o.maxBuffer closed [] pieces past' why' → past = past' ∧ why = why'
  /-- As soon as it has ended, and not before, the client has been told why if it is to be told. -/
  told : put.filterMap Delivery.farewell? =
    ((c.departure?.bind Departure.lastLine?).map Reply.error).toList
  /-- With nothing left to do it has ended. -/
  ended : s.StillAt i → ∀ past why, FirstEnding o.maxBuffer closed [] pieces past why →
    Concluded past why taken put c ∧ (why.trouble? = none ↔ why = .quit ∨ why = .left) ∧
      (s.connections.length < 2 ^ 64 → s.heardOf (.ofNat (i + 1)) =
        [.connected (.ofNat (i + 1)), .disconnected (.ofNat (i + 1)) why.trouble?])
  /-- It has not where nothing in the stream ends it. -/
  listens : s.StillAt i → (∀ past why, ¬FirstEnding o.maxBuffer closed [] pieces past why) →
    c.departure? = none ∧ c.writer.isStopped = false ∧ (s.connections.length < 2 ^ 64 →
      s.heardOf (.ofNat (i + 1)) = [.connected (.ofNat (i + 1))])

/-- What is told at the end is the last line. -/
theorem farewell_eq (said : Transcript) :
    said.farewell.map Delivery.farewell =
      ((said.ending.bind Departure.lastLine?).map (.farewell <| .error ·)).toList := by
  rw [Transcript.farewell]
  cases said.ending.bind Departure.lastLine? <;> rfl

theorem Standing.told_line {g : Gateway} {o : Connection.Options} {arrived : List Arrival}
    {taken underway : List Taken} {put : List Delivery} {c : Connection}
    {past : List (List Bytes)}
    (h : Standing g o arrived taken put c past underway) :
    put.filterMap Delivery.farewell? =
      ((c.departure?.bind Departure.lastLine?).map Reply.error).toList := by
  rw [h.told, Connection.departure?]
  cases c.reader with
  | finished why => exact congrArg Option.toList (told_eq why)
  | reading => rfl
  | awaiting ticket last => rfl
  | draining x => rfl

namespace Server

variable {g : Gateway} {o : Connection.Options} {store : Store} {run : List Happening} {s : Server}

/-- What is known of a connection with nothing left to do, by what its client has said. -/
structure Done (said : Transcript) (taken : List Taken) (put : List Delivery) (c : Connection) :
    Prop where
  answered : AnsweredAll said taken put c
  stopped : c.writer.isStopped = said.ending.isSome
  known : Known said taken put c

section

variable {said : Transcript} {taken : List Taken} {put : List Delivery} {c : Connection}

/-- Its requests are answered and, if it has ended, the client has been told why. -/
theorem Done.answers (h : Done said taken put c) :
    ∃ answers, Answers c.session said.requests answers ∧
      put.Perm (answers ++
        ((c.departure?.bind Departure.lastLine?).map (.farewell <| .error ·)).toList) := by
  obtain ⟨answers, hanswers, hput⟩ := h.answered.answers
  rw [farewell_eq, ← h.known.departure] at hput
  exact ⟨answers, hanswers, hput⟩

theorem Done.concluded {past : List (List Bytes)} {why : Departure} (h : Done said taken put c)
    (hsaid : said = (Transcript.ended why).after past) : Concluded past why taken put c := by
  have hrequests : said.requests = past := by
    rw [hsaid, Transcript.requests_ended]
  have hending : said.ending = some why := by rw [hsaid]; rfl
  have hdeparture : c.departure? = some why := h.known.departure.trans hending
  obtain ⟨answers, hanswers, hput⟩ := h.answers
  rw [hrequests] at hanswers
  rw [hdeparture, Option.bind_some] at hput
  exact
    { departure := hdeparture
      departed := by rw [h.known.departed, hending, Option.isSome_some]
      stopped := by rw [h.stopped, hending, Option.isSome_some]
      commands := hrequests ▸ h.answered.commands
      answers := ⟨answers, hanswers, hput⟩
      sent := h.answered.sent }

end

/-- A connection with nothing left to do is done with what its client has said. -/
theorem Books.done {ledger : List Taken} {history : List (Nat × Delivery)} {i : Nat}
    {c : Connection} (h : Books g o (arrived run) ledger history s)
    (hreplays : Replays g store history s.work.store) (hkeeps : g.KeepsCommands)
    (hends : g.AlwaysEnds) (hstill : s.StillAt i) (hc : s.connections[i]? = some c)
    (hsound : c.Sound) :
    Done (said o run i) (takenOn i ledger) (putOut i history) c := by
  have hkept := h.kept hreplays hkeeps hc
  obtain ⟨hsettled, past, hst⟩ := h.settledAt hends hstill hc
  obtain ⟨hall, hstopped⟩ := hst.answeredAll_settled hsettled hkept (timely_of_kept hkept)
  exact ⟨hall, hstopped, h.known hends hstill hc hsound⟩

/-- **A connection ends at the first thing in its stream that ends it**, for that reason and for no
other: in either mode, for all callees that keep commands and whose calls end or are given up, for
all clients at once and in every order of moves. Before it every request is answered, whatever
becomes of it; behind it nothing is heard. Whichever moves the server makes, it comes to have
nothing left to do. -/
theorem run_ending (hkeeps : g.KeepsCommands) (hends : g.AlwaysEnds)
    (hrun : (start g o store).follow? run = some s) :
    ∃ ledger history, Replays g store history s.work.store ∧
      s.work.calls = ledger.flatMap (Taken.calls g) ∧
      (∀ i c pieces closed, s.connections[i]? = some c →
        arrived run i = piecewise pieces closed →
        EndsAtFirst o pieces closed s i (takenOn i ledger) (putOut i history) c) ∧
      ∀ (moves : List Move) (s' : Server), s.follow? (moves.map .move) = some s' →
        moves.length + s'.effort ≤ s.effort := by
  obtain ⟨ledger, history, hbooks, hreplays⟩ := books_run hrun
  have haccounts := accounts_run hrun
  refine ⟨ledger, history, hreplays, hbooks.calls, fun i c pieces closed hc harrived => ?_,
    fun moves s' => moves_end⟩
  obtain ⟨-, past, underway, hst⟩ := hbooks.connections i c hc
  -- what its client has said decides what is known of a connection with nothing left to do
  have hsaid : said o run i = .ofArrivals o.maxBuffer [] (piecewise pieces closed) := by
    rw [said, harrived]
  have hdone := fun hstill : s.StillAt i => hbooks.done hreplays hkeeps hends hstill hc
    (haccounts.sound c (List.mem_of_getElem? hc))
  exact
    { only := by
        intro why hwhy
        refine Transcript.ending_iff.mp ?_
        rw [← harrived, hst.heard_now, Connection.outlook, departure?_eq.mp hwhy]
        rfl
      unique := fun _ _ _ _ => Transcript.firstEnding_unique
      told := hst.told_line
      ended := by
        intro hstill past why hfirst
        have hlast := hsaid.trans (Transcript.ofArrivals_firstEnding hfirst)
        refine ⟨(hdone hstill).concluded hlast, trouble?_eq_none_iff why, fun hlength => ?_⟩
        rw [hbooks.heard haccounts hends hstill hc hlength, hlast]
        rfl
      listens := by
        intro hstill hnone
        rcases Transcript.firstEnding_or_asks o.maxBuffer closed [] pieces with
          ⟨past, why, hfirst⟩ | ⟨-, past, rest, -, hopen⟩
        · exact absurd hfirst (hnone past why)
        · have hending : (said o run i).ending = none := by rw [hsaid, hopen]
          refine ⟨?_, ?_, fun hlength => ?_⟩
          · rw [(hdone hstill).known.departure, hending]
          · rw [(hdone hstill).stopped, hending, Option.isSome_none]
          · rw [hbooks.heard haccounts hends hstill hc hlength, hending]
            rfl }

/-- An unknown name, a `PING` and the beginning of a `GET` in two pieces, with the end of the input
behind them. -/
def endedInside : List Happening :=
  [.accept, .receive 0 (.bytes [70, 79, 79, 13, 10, 80, 73]),
    .receive 0 (.bytes [78, 71, 13, 10, 71, 69, 84, 32]), .receive 0 .endOfInput,
    .move (.reader 0), .move (.reader 0), .move (.reader 0), .move (.reader 0),
    .move (.reader 0), .move (.land 0 0), .move (.writer 0), .move (.writer 0),
    .move (.writer 0), .move (.writer 0), .move (.writer 0), .move (.writer 0),
    .move (.release 0), .move (.writer 0), .move (.writer 0), .move (.depart 0)]

/-- Where there is space for four bytes, that many of the `GET` end the connection, although the end
of the input waits behind them. The `PING` is answered behind the last line. -/
theorem run_ending_full :
    ∃ s, (start { routes := .own } { ordered := false, maxBuffer := 4 } .fresh).follow?
        endedInside = some s ∧
      s.received 0 = Text.Utf8.ofString ("-ERR unknown command 'FOO'\r\n" ++
        "-ERR Protocol error: request exceeds max buffer\r\n+PONG\r\n") ∧
      ∃ taken put c, s.connections[0]? = some c ∧
        Concluded [[[70, 79, 79]], [[80, 73, 78, 71]]] (.troubled .oversized) taken put c := by
  have hplain : Gateway.Plain { routes := .own } := ⟨rfl, rfl⟩
  have heval : ((start { routes := .own } { ordered := false, maxBuffer := 4 } .fresh).follow?
      endedInside).map (fun s => (s.received 0, s.connections.length,
        s.connections.all isOver)) =
      some (Text.Utf8.ofString ("-ERR unknown command 'FOO'\r\n" ++
        "-ERR Protocol error: request exceeds max buffer\r\n+PONG\r\n"), 1, true) := by
    decide +kernel
  obtain ⟨s, hrun, hs⟩ := Option.map_eq_some_iff.mp heval
  simp only [Prod.mk.injEq] at hs
  obtain ⟨hreceived, hlength, hover⟩ := hs
  obtain ⟨c, hc⟩ : ∃ c, s.connections[0]? = some c :=
    ⟨_, List.getElem?_eq_getElem (by omega)⟩
  have hfirst : FirstEnding 4 true []
      [[70, 79, 79, 13, 10, 80, 73], [78, 71, 13, 10, 71, 69, 84, 32]]
      [[[70, 79, 79]], [[80, 73, 78, 71]]] (.troubled .oversized) :=
    Transcript.ofArrivals_eq_ended_iff.mp (by decide)
  obtain ⟨ledger, history, -, -, hall, -⟩ := run_ending hplain.keepsCommands hplain.alwaysEnds hrun
  have hconcluded := ((hall 0 _ _ true hc rfl).ended ((atRest_of_all hover).still 0) _ _ hfirst).1
  exact ⟨s, hrun, hreceived, _, _, _, hc, hconcluded⟩

end Server

end RespGateway
