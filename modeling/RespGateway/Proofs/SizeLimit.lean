import RespGateway.Proofs.Endings

/-!
# Requests that are too large

How long a request is does not decide whether it is refused for its size. The reader asks
for the space only where it needs more, so a request that is longer than the limit is
dispatched if the read that brings its last byte began before the limit was reached. It is
refused exactly if some read ends inside it with that many bytes of it held (`HeldAt`);
what stands before it in the same read does not count. A request that fits is never held
up in this way.

So this is what a run makes of the requests of a stream (`run_size`): they are heard up to
the first that is held at the limit.
-/

namespace RespGateway

open Request (decode)

/-! ## Boundaries of one stream -/

namespace Heard

variable {stream rest rest' : Bytes} {past past' : List (List Bytes)}

/-- None of the requests is a `QUIT`. -/
theorem noQuit (h : Heard stream past rest) : past.any asksToQuit = false := by
  induction h with
  | nothing stream => rfl
  | request hd hquit _ ih => rw [List.any_cons, hquit, ih, Bool.false_or]

/-- What is heard behind a `QUIT` is heard before it. -/
theorem before_quit (h : Heard stream past rest) {arguments : List Bytes}
    (hquit : asksToQuit arguments = true) (hpast : past <+: past' ++ [arguments]) :
    past <+: past' := by
  rcases List.prefix_concat_iff.mp hpast with hall | hbefore
  · have hnone := h.noQuit
    rw [hall, List.any_append, List.any_cons, hquit, Bool.true_or, Bool.or_true] at hnone
    cases hnone
  · exact hbefore

/-- From one boundary of a stream the requests go on to the next. -/
theorem split (h : Heard stream past rest) (h' : Heard stream past' rest')
    (hpast : past <+: past') : ∃ later, past' = past ++ later ∧ Heard rest later rest' := by
  induction h generalizing past' with
  | nothing stream => exact ⟨past', rfl, h'⟩
  | @request stream rest arguments consumed past hd _ _ ih =>
      cases h' with
      | nothing => exact absurd (List.prefix_nil.mp hpast) (List.cons_ne_nil _ _)
      | request hd' _ hheard =>
          -- one request stands at the front of the stream
          rw [hd] at hd'
          obtain ⟨rfl, rfl⟩ := Request.Verdict.complete.inj hd'
          obtain ⟨later, rfl, hlater⟩ := ih hheard (List.cons_prefix_cons.mp hpast).2
          exact ⟨later, rfl, hlater⟩

/-- Behind a request that is undecided no other is heard. -/
theorem stop (h : Heard stream past rest) (hd : decode rest = .incomplete)
    (h' : Heard stream past' rest') (hpast : past <+: past') : past' = past ∧ rest' = rest := by
  obtain ⟨later, rfl, hlater⟩ := h.split h' hpast
  cases hlater with
  | nothing => exact ⟨List.append_nil _, rfl⟩
  | request hd' =>
      rw [hd] at hd'
      cases hd'

/-- Behind a boundary the next request is heard, if any is. -/
theorem next (h : Heard stream past rest) {arguments : List Bytes} {consumed : Nat}
    (hd : decode rest = .complete arguments consumed) (h' : Heard stream past' rest')
    (hpast : past <+: past') :
    past' = past ∧ rest' = rest ∨ past ++ [arguments] <+: past' := by
  obtain ⟨later, rfl, hlater⟩ := h.split h' hpast
  cases hlater with
  | nothing => exact Or.inl ⟨List.append_nil _, rfl⟩
  | request hd' =>
      rw [hd] at hd'
      obtain ⟨rfl, rfl⟩ := Request.Verdict.complete.inj hd'
      exact Or.inr (by simp)

/-- What is heard stands at the front of the stream. -/
theorem front (h : Heard stream past rest) :
    (Request.drain stream).requests.map Prod.fst =
      past ++ (Request.drain rest).requests.map Prod.fst := by
  induction h with
  | nothing stream => rfl
  | request hd _ _ ih =>
      rw [Request.drain_complete hd]
      exact congrArg (_ :: ·) ih

end Heard

/-! ## Requests that are held at the limit -/

/-- Behind what has been read a read ends inside the request behind `past`, with at least `limit`
bytes of it held. -/
def HeldAfter (limit : Nat) (read : Bytes) (pieces : List Bytes) (past : List (List Bytes)) :
    Prop :=
  ∃ front held, front <+: pieces ∧ Heard (read ++ front.flatten) past held ∧
    decode held = .incomplete ∧ limit ≤ held.length

/-- A read ends inside the request behind `past`, with at least `limit` bytes of it held. -/
def HeldAt (limit : Nat) (pieces : List Bytes) (past : List (List Bytes)) : Prop :=
  HeldAfter limit [] pieces past

theorem HeldAfter.here {limit : Nat} {read held : Bytes} {pieces : List Bytes}
    {past : List (List Bytes)} (hheld : Heard read past held) (hd : decode held = .incomplete)
    (hfull : limit ≤ held.length) : HeldAfter limit read pieces past := by
  refine ⟨[], held, List.nil_prefix, ?_, hd, hfull⟩
  rwa [List.flatten_nil, List.append_nil]

theorem HeldAfter.cons {limit : Nat} {read piece : Bytes} {pieces : List Bytes}
    {past : List (List Bytes)} (h : HeldAfter limit (read ++ piece) pieces past) :
    HeldAfter limit read (piece :: pieces) past := by
  obtain ⟨front, held, hfront, hheard, hd, hfull⟩ := h
  rw [List.append_assoc] at hheard
  exact ⟨piece :: front, held, List.cons_prefix_cons.mpr ⟨rfl, hfront⟩, hheard, hd, hfull⟩

section

variable {limit : Nat} {read behind : Bytes} {past heard : List (List Bytes)} {why : Departure}

/-- A connection that ends with a request held up behind what it has heard ends by its size. -/
theorem EndsWith.held (h : EndsWith limit false read heard why) {held : Bytes}
    (hheld : Heard (read ++ behind) past held) (hd : decode held = .incomplete)
    (hpast : past <+: heard) : heard = past ∧ why = .troubled .oversized := by
  cases h with
  | quit hheard hlast hquit =>
      obtain ⟨-, rfl⟩ := hheld.stop hd (hheard.append behind) (hheld.before_quit hquit hpast)
      rw [Request.decode_append_complete hlast behind] at hd
      cases hd
  | malformed hheard hbad =>
      obtain ⟨-, rfl⟩ := hheld.stop hd (hheard.append behind) hpast
      rw [Request.decode_append_malformed hbad behind] at hd
      cases hd
  | oversized hheard _ _ =>
      exact ⟨(hheld.stop hd (hheard.append behind) hpast).1, rfl⟩
  | left _ _ hfalse => cases hfalse
  | cutShort _ _ _ _ hfalse => cases hfalse

/-- A connection that ends has heard a request of its stream, if all before it, or ends with this
one held at the limit. -/
theorem EndsWith.heard_or_held (h : EndsWith limit false read heard why) {rest : Bytes}
    {arguments : List Bytes} {consumed : Nat} (hrest : Heard (read ++ behind) past rest)
    (hd : decode rest = .complete arguments consumed) (hpast : past <+: heard) :
    past ++ [arguments] <+: heard ∨
      ∃ held, Heard read past held ∧ decode held = .incomplete ∧ limit ≤ held.length := by
  cases h with
  | quit hheard hlast hquit =>
      rcases hrest.next hd (hheard.append behind) (hrest.before_quit hquit hpast) with
        ⟨rfl, rfl⟩ | hnext
      · rw [Request.decode_append_complete hlast behind] at hd
        obtain ⟨rfl, -⟩ := Request.Verdict.complete.inj hd
        exact Or.inl (List.prefix_refl _)
      · exact Or.inl (hnext.trans (List.prefix_append ..))
  | malformed hheard hbad =>
      rcases hrest.next hd (hheard.append behind) hpast with ⟨-, rfl⟩ | hnext
      · rw [Request.decode_append_malformed hbad behind] at hd
        cases hd
      · exact Or.inl hnext
  | oversized hheard hopen hfull =>
      rcases hrest.next hd (hheard.append behind) hpast with ⟨rfl, -⟩ | hnext
      · exact Or.inr ⟨_, hheard, hopen, hfull⟩
      · exact Or.inl hnext
  | left _ _ hfalse => cases hfalse
  | cutShort _ _ _ _ hfalse => cases hfalse

end

/-- What a connection has heard when it ends stands at the front of the stream. -/
theorem EndsWith.front {limit : Nat} {closed : Bool} {read : Bytes} {heard : List (List Bytes)}
    {why : Departure} (h : EndsWith limit closed read heard why) (behind : Bytes) :
    heard <+: (Request.drain (read ++ behind)).requests.map Prod.fst := by
  cases h with
  | quit hheard hlast _ =>
      rw [(hheard.append behind).front,
        Request.drain_complete (Request.decode_append_complete hlast behind)]
      exact (List.prefix_append_right_inj _).mpr (List.cons_prefix_cons.mpr ⟨rfl, List.nil_prefix⟩)
  | malformed hheard _ => exact (hheard.append behind).front ▸ List.prefix_append ..
  | oversized hheard _ _ => exact (hheard.append behind).front ▸ List.prefix_append ..
  | left hheard _ _ => exact (hheard.append behind).front ▸ List.prefix_append ..
  | cutShort hheard _ _ _ _ => exact (hheard.append behind).front ▸ List.prefix_append ..

theorem FirstEnding.front {limit : Nat} {closed : Bool} {read : Bytes} {pieces : List Bytes}
    {heard : List (List Bytes)} {why : Departure}
    (h : FirstEnding limit closed read pieces heard why) :
    heard <+: (Request.drain (read ++ pieces.flatten)).requests.map Prod.fst := by
  induction h with
  | now hends => exact hends.front _
  | later _ _ ih => rwa [List.flatten_cons, ← List.append_assoc]

/-! ## What a reader hears -/

namespace Transcript

open Server (piecewise)

variable {limit : Nat} {closed : Bool} {read rest : Bytes} {pieces : List Bytes}
  {past : List (List Bytes)}

/-- A reader that asks for more holds no request at the limit. -/
theorem not_held_of_asks {heard : List (List Bytes)} (h : Asks limit read heard rest)
    {held : Bytes} (hheld : Heard read past held) (hd : decode held = .incomplete) :
    ¬limit ≤ held.length := by
  intro hfull
  exact h.not_endsWith past _ (.oversized hheld hd hfull)

/-- Where nothing more comes, a reader that asks for more has heard all it will. -/
theorem requests_asks (h : Asks limit read past rest) :
    (ofArrivals limit read (piecewise [] closed)).requests = past := by
  rw [ofArrivals_asks h]
  cases closed with
  | false => exact List.append_nil past
  | true => exact List.append_nil past

/-- **Where a request is held at the limit**, and all before it have been heard, the client is
refused for its size. -/
theorem ofArrivals_heldAfter (h : HeldAfter limit read pieces past)
    (hpast : past <+: (ofArrivals limit read (piecewise pieces closed)).requests) :
    ofArrivals limit read (piecewise pieces closed) =
      (ended (.troubled .oversized)).after past := by
  induction pieces generalizing read with
  | nil =>
      obtain ⟨front, held, hfront, hheld, hd, hfull⟩ := h
      rw [List.prefix_nil.mp hfront, List.flatten_nil, List.append_nil] at hheld
      have hends : EndsWith limit false read past (.troubled .oversized) :=
        .oversized hheld hd hfull
      exact ofArrivals_ended hends _
  | cons piece pieces ih =>
      rcases endsWith_or_asks limit read with ⟨heard, why, hends⟩ | ⟨heard, rest, hasks⟩
      · -- it has ended already, with all of the requests before this one
        obtain ⟨front, held, -, hheld, hd, -⟩ := h
        have hsaid := ofArrivals_ended hends (piecewise (piece :: pieces) closed)
        rw [hsaid, requests_ended] at hpast
        obtain ⟨rfl, rfl⟩ := hends.held hheld hd hpast
        exact hsaid
      · obtain ⟨front, held, hfront, hheld, hd, hfull⟩ := h
        cases front with
        | nil =>
            rw [List.flatten_nil, List.append_nil] at hheld
            exact absurd hfull (not_held_of_asks hasks hheld hd)
        | cons piece' front =>
            obtain ⟨rfl, hbehind⟩ := List.cons_prefix_cons.mp hfront
            rw [List.flatten_cons, ← List.append_assoc] at hheld
            rw [piecewise_cons, ofArrivals_read hasks] at hpast ⊢
            exact ih ⟨front, held, hbehind, hheld, hd, hfull⟩ hpast

section

variable {behind : Bytes} {arguments : List Bytes} {consumed : Nat}

/-- A connection that ends without a request held at the limit has heard it, if all before it. -/
theorem ofArrivals_not_held_ended {heard : List (List Bytes)} {why : Departure}
    {arrivals : List Arrival} (hends : EndsWith limit false read heard why)
    (hrest : Heard (read ++ behind) past rest) (hd : decode rest = .complete arguments consumed)
    (hheld : ¬HeldAfter limit read pieces past)
    (hpast : past <+: (ofArrivals limit read arrivals).requests) :
    past ++ [arguments] <+: (ofArrivals limit read arrivals).requests := by
  rw [ofArrivals_ended hends, requests_ended] at hpast ⊢
  rcases hends.heard_or_held hrest hd hpast with hnext | ⟨held, hstop, hopen, hfull⟩
  · exact hnext
  · exact absurd (.here hstop hopen hfull) hheld

/-- **A request that is not held at the limit is heard**, if all before it are. -/
theorem ofArrivals_not_heldAfter (hrest : Heard (read ++ pieces.flatten) past rest)
    (hd : decode rest = .complete arguments consumed) (hheld : ¬HeldAfter limit read pieces past)
    (hpast : past <+: (ofArrivals limit read (piecewise pieces closed)).requests) :
    past ++ [arguments] <+: (ofArrivals limit read (piecewise pieces closed)).requests := by
  induction pieces generalizing read with
  | nil =>
      rcases endsWith_or_asks limit read with ⟨heard, why, hends⟩ | ⟨heard, rest', hasks⟩
      · exact ofArrivals_not_held_ended hends hrest hd hheld hpast
      · -- nothing that is undecided is a request
        rw [requests_asks hasks] at hpast ⊢
        rw [List.flatten_nil, List.append_nil] at hrest
        rcases hrest.next hd hasks.heard hpast with ⟨-, rfl⟩ | hnext
        · rw [hasks.undecided] at hd
          cases hd
        · exact hnext
  | cons piece pieces ih =>
      rcases endsWith_or_asks limit read with ⟨heard, why, hends⟩ | ⟨heard, rest', hasks⟩
      · exact ofArrivals_not_held_ended hends hrest hd hheld hpast
      · rw [piecewise_cons, ofArrivals_read hasks] at hpast ⊢
        rw [List.flatten_cons, ← List.append_assoc] at hrest
        exact ih hrest (fun hlater => hheld hlater.cons) hpast

end

/-- What a reader hears stands at the front of the stream. -/
theorem requests_front :
    (ofArrivals limit read (piecewise pieces closed)).requests <+:
      (Request.drain (read ++ pieces.flatten)).requests.map Prod.fst := by
  rcases firstEnding_or_asks limit closed read pieces with
    ⟨heard, why, hends⟩ | ⟨-, heard, rest, hasks, hsaid⟩
  · rw [ofArrivals_firstEnding hends, requests_ended]
    exact hends.front
  · rw [hsaid, hasks.heard.front]
    exact List.prefix_append ..

/-- Only where a request is held at the limit is the client refused for its size. -/
theorem heldAfter_of_oversized
    (h : FirstEnding limit closed read pieces past (.troubled .oversized)) :
    HeldAfter limit read pieces past := by
  generalize hwhy : Departure.troubled .oversized = why at h
  induction h with
  | now hends =>
      cases hends with
      | oversized hheard hd hfull => exact .here hheard hd hfull
      | quit => cases hwhy
      | malformed => cases hwhy
      | left => cases hwhy
      | cutShort => cases hwhy
  | later _ _ ih => exact (ih hwhy).cons

end Transcript

/-- A request that fits is not held at the limit. -/
theorem not_heldAt_of_fits {limit : Nat} {pieces : List Bytes} {past : List (List Bytes)}
    {rest : Bytes} {arguments : List Bytes} {consumed : Nat}
    (hrest : Heard pieces.flatten past rest) (hd : decode rest = .complete arguments consumed)
    (hfits : consumed ≤ limit) : ¬HeldAt limit pieces past := by
  rintro ⟨front, held, ⟨behind, rfl⟩, hheld, hopen, hfull⟩
  rw [List.nil_append] at hheld
  rw [List.flatten_append] at hrest
  obtain ⟨later, hlater, hsplit⟩ := (hheld.append behind.flatten).split hrest (List.prefix_refl _)
  obtain rfl := List.self_eq_append_right.mp hlater
  cases hsplit
  have hlong := Request.lt_of_held hopen hfull hd
  omega

/-! ## Runs -/

/-- What becomes of the requests of a client that sends these pieces: `requests` are heard. -/
structure HeardUpToHeld (limit : Nat) (pieces : List Bytes) (requests : List (List Bytes))
    (taken : List Taken) (put : List Delivery) (c : Connection) : Prop where
  /-- What is heard are requests from the front of the stream. -/
  front : requests <+: (Request.drain pieces.flatten).requests.map Prod.fst
  /-- Those that are commands are dispatched, and no others. -/
  commands : (commandsOf c.session requests).Perm (taken.map Taken.exchange)
  /-- Each of them is answered once, and nothing else is written but the last line. -/
  answers : ∃ answers, Answers c.session requests answers ∧
    put.Perm (answers ++
      ((c.departure?.bind Departure.lastLine?).map (.farewell <| .error ·)).toList)
  /-- A request that is held at the limit is refused for its size, if all before it are heard. -/
  refused : ∀ past, past <+: requests → HeldAt limit pieces past →
    Concluded past (.troubled .oversized) taken put c
  /-- A request that is not, is heard, whatever its length. -/
  heard : ∀ past rest arguments consumed, past <+: requests → Heard pieces.flatten past rest →
    decode rest = .complete arguments consumed → ¬HeldAt limit pieces past →
    past ++ [arguments] <+: requests
  /-- A request that is not longer than the limit is not held there. -/
  fits : ∀ past rest arguments consumed, Heard pieces.flatten past rest →
    decode rest = .complete arguments consumed → consumed ≤ limit → ¬HeldAt limit pieces past
  /-- Nothing else is refused for its size. -/
  only : c.departure? = some (.troubled .oversized) → HeldAt limit pieces requests

namespace Server

/-- A `PING` written as an array, of fourteen bytes. -/
def longPing : Bytes := [42, 49, 13, 10, 36, 52, 13, 10, 80, 73, 78, 71, 13, 10]

/-- It is not so that no request is dispatched that is longer than the limit: where there is space
for ten bytes, one of fourteen is, if it arrives in one piece. -/
theorem dispatched_beyond_limit :
    ¬∀ (g : Gateway) (o : Connection.Options) (store : Store) (run : List Happening) (s : Server)
      (i : Nat) (pieces : List Bytes) (closed : Bool) (arguments : List Bytes) (consumed : Nat),
      g.KeepsCommands → g.AlwaysEnds → 1 ≤ o.maxBuffer →
      (start g o store).follow? run = some s → arrived run i = piecewise pieces closed →
      decode pieces.flatten = .complete arguments consumed → o.maxBuffer < consumed →
      ∀ call ∈ s.work.calls, call.client ≠ .ofNat (i + 1) := by
  intro hclaim
  have hplain : Gateway.Plain { routes := .own } := ⟨rfl, rfl⟩
  have heval : ((start { routes := .own } { maxBuffer := 10 } .fresh).follow?
      [.accept, .receive 0 (.bytes longPing), .move (.reader 0), .move (.reader 0)]).map
        (·.work.calls.map (·.client)) = some [1] := by
    decide +kernel
  obtain ⟨s, hrun, hcalls⟩ := Option.map_eq_some_iff.mp heval
  have hnone := hclaim _ _ _ _ s 0 [longPing] false [[80, 73, 78, 71]] 14
    hplain.keepsCommands hplain.alwaysEnds (by decide) hrun rfl (by decide) (by decide)
  obtain ⟨call, hcall, hclient⟩ := List.mem_map.mp (hcalls ▸ List.mem_singleton_self 1)
  exact hnone call hcall hclient

/-- **Whether a request is refused for its size depends on where the reads end.** This is so in
either mode, for all callees that keep commands and whose calls end or are given up, for all clients
at once and in every order of moves. -/
theorem run_size {g : Gateway} {o : Connection.Options} {store : Store} {run : List Happening}
    {s : Server} (hkeeps : g.KeepsCommands) (hends : g.AlwaysEnds)
    (hrun : (start g o store).follow? run = some s) :
    ∃ ledger history, Replays g store history s.work.store ∧
      s.work.calls = ledger.flatMap (Taken.calls g) ∧
      ∀ i c pieces closed, s.connections[i]? = some c →
        arrived run i = piecewise pieces closed → s.StillAt i →
        ∃ requests, HeardUpToHeld o.maxBuffer pieces requests (takenOn i ledger)
          (putOut i history) c := by
  obtain ⟨ledger, history, hbooks, hreplays⟩ := books_run hrun
  have haccounts := accounts_run hrun
  refine ⟨ledger, history, hreplays, hbooks.calls, ?_⟩
  intro i c pieces closed hc harrived hstill
  have hsaid : said o run i = .ofArrivals o.maxBuffer [] (piecewise pieces closed) := by
    rw [said, harrived]
  have hdone := hbooks.done hreplays hkeeps hends hstill hc
    (haccounts.sound c (List.mem_of_getElem? hc))
  rw [hsaid] at hdone
  refine ⟨(Transcript.ofArrivals o.maxBuffer [] (piecewise pieces closed)).requests, ?_⟩
  exact
    { front := Transcript.requests_front
      commands := hdone.answered.commands
      answers := hdone.answers
      refused := by
        intro past hpast hheld
        exact hdone.concluded (Transcript.ofArrivals_heldAfter hheld hpast)
      heard := by
        intro past rest arguments consumed hpast hrest hd hheld
        exact Transcript.ofArrivals_not_heldAfter hrest hd hheld hpast
      fits := by
        intro past rest arguments consumed hrest hd hfits
        exact not_heldAt_of_fits hrest hd hfits
      only := by
        intro hdeparture
        rw [hdone.known.departure] at hdeparture
        obtain ⟨past, hfirst⟩ := Transcript.ending_iff.mp hdeparture
        rw [Transcript.ofArrivals_firstEnding hfirst, Transcript.requests_ended]
        exact Transcript.heldAfter_of_oversized hfirst }

/-- The beginning of a `GET`, of ten bytes. -/
def getBegun : Bytes := [71, 69, 84, 32, 97, 98, 99, 100, 101, 102]

/-- The long `PING` and the beginning of a `GET`, in two pieces. -/
def longAndHeld : List Happening :=
  [.accept, .receive 0 (.bytes longPing), .receive 0 (.bytes getBegun), .move (.reader 0),
    .move (.reader 0), .move (.land 0 0), .move (.reader 0), .move (.reader 0),
    .move (.writer 0), .move (.writer 0), .move (.writer 0), .move (.writer 0),
    .move (.release 0), .move (.writer 0), .move (.writer 0), .move (.depart 0)]

/-- Where there is space for ten bytes, the `PING` of fourteen is answered, and the ten bytes of the
`GET` are refused. -/
theorem run_size_ten :
    ∃ s, (start { routes := .own } { maxBuffer := 10 } .fresh).follow? longAndHeld = some s ∧
      s.received 0 = Text.Utf8.ofString
        "+PONG\r\n-ERR Protocol error: request exceeds max buffer\r\n" ∧
      ∃ taken put c, s.connections[0]? = some c ∧
        Concluded [[[80, 73, 78, 71]]] (.troubled .oversized) taken put c := by
  have hplain : Gateway.Plain { routes := .own } := ⟨rfl, rfl⟩
  have heval : ((start { routes := .own } { maxBuffer := 10 } .fresh).follow? longAndHeld).map
      (fun s => (s.received 0, s.connections.length, s.connections.all isOver)) =
      some (Text.Utf8.ofString
        "+PONG\r\n-ERR Protocol error: request exceeds max buffer\r\n", 1, true) := by
    decide +kernel
  obtain ⟨s, hrun, hs⟩ := Option.map_eq_some_iff.mp heval
  simp only [Prod.mk.injEq] at hs
  obtain ⟨hreceived, hlength, hover⟩ := hs
  obtain ⟨c, hc⟩ : ∃ c, s.connections[0]? = some c :=
    ⟨_, List.getElem?_eq_getElem (by omega)⟩
  obtain ⟨ledger, history, -, -, hall⟩ := run_size hplain.keepsCommands hplain.alwaysEnds hrun
  obtain ⟨requests, hrequests⟩ := hall 0 c [longPing, getBegun] false hc rfl
    ((atRest_of_all hover).still 0)
  -- the first read ends behind the `PING`, the second inside the `GET`
  have hfree : ¬HeldAt 10 [longPing, getBegun] [] := by
    intro hheld
    obtain ⟨front, held, hfront, hnothing, hd, hfull⟩ := hheld
    cases hnothing
    have hreads : front ∈ [[], [longPing], [longPing, getBegun]] :=
      (List.mem_inits _ _).mpr hfront
    simp only [List.mem_cons, List.not_mem_nil, or_false] at hreads
    rcases hreads with rfl | rfl | rfl
    · exact absurd hfull (by decide)
    · exact absurd hd (by decide)
    · exact absurd hd (by decide)
  have hheard : Heard (longPing ++ getBegun) [[[80, 73, 78, 71]]] getBegun :=
    @Heard.request _ _ _ 14 _ (by decide) (by decide) (.nothing _)
  have hheld : HeldAt 10 [longPing, getBegun] [[[80, 73, 78, 71]]] :=
    ⟨_, _, List.prefix_refl _, hheard, by decide, by decide⟩
  have hfirst := hrequests.heard [] _ [[80, 73, 78, 71]] 14 List.nil_prefix
    (.nothing _) (by decide) hfree
  exact ⟨s, hrun, hreceived, _, _, c, hc, hrequests.refused _ hfirst hheld⟩

end Server

end RespGateway
