import RespGateway.Proofs.Apart
import RespGateway.Proofs.Room

/-!
# A visit in pieces

A client connects to a server at rest, sends a stream in pieces, ends its input or does
not, and the server works until nothing is left to do. Where there is room for its
requests, how the stream was cut does not show (`run_cut`): in any two such visits the
client has received the same, the connection has ended in the same way, the counters are
the same, and so is the store.

The transcript is the same (`RespGateway.Proofs.Room`), so the same things are put out for
the client one by one (`Delivery.Same`), and from one store these have the same contents
and leave the same store behind (`Replays.same`).
-/

namespace RespGateway

/-! ## The same things put out in two runs -/

/-- What is put out in two runs for the same request, or at the end for the same reason. -/
inductive Delivery.Same : Delivery → Delivery → Prop where
  | refusal (why : Exchange.Refusal) : Same (.refusal why) (.refusal why)
  | reply {t t' : Taken} {y y' : Exchange} : t.exchange = t'.exchange →
      t.exchange.response = none → Same (.reply t y) (.reply t' y')
  | farewell (r : Reply) : Same (.farewell r) (.farewell r)

theorem same_of_request {client : UInt64} {arguments : List Bytes} {d d' : Delivery}
    (hd : d.request? = some (Exchange.decode client arguments))
    (hd' : d'.request? = some (Exchange.decode client arguments)) : d.Same d' := by
  rcases pair_of_request hd hd' with ⟨why, rfl, rfl⟩ | ⟨t, y, t', y', rfl, rfl, hx, hexchange⟩
  · exact .refusal why
  · obtain ⟨hclient, hopen, -⟩ := Exchange.decode_ok hx
    refine .reply ?_ hopen
    rw [hexchange, ← hclient]

section

variable {g : Gateway} {s s' s'' : Store}

theorem Delivery.Same.comes {d d' : Delivery} (h : d.Same d') (hplain : g.Plain)
    (hd : d.Comes g s s') (hd' : d'.Comes g s s'') :
    d.item.content = d'.item.content ∧ s' = s'' := by
  cases h with
  | refusal why =>
      cases hd
      cases hd'
      exact ⟨rfl, rfl⟩
  | reply hexchange hopen =>
      cases hd with
      | reply hlaunch hland =>
          cases hd' with
          | reply hlaunch' hland' =>
              -- the ticket may be another one, which does not matter for the end
              have halike : Exchange.Alike _ _ := ⟨rfl, rfl, hopen, hopen⟩
              rw [← hexchange] at hlaunch'
              obtain ⟨hresponse, hstore⟩ :=
                (hplain.alike halike hlaunch hlaunch').land_same halike hland hland'
              refine ⟨?_, hstore⟩
              simp only [Delivery.item, Outgoing.content, hresponse]
  | farewell r =>
      cases hd
      cases hd'
      exact ⟨rfl, rfl⟩

/-- **From one store the same things have the same contents and leave the same store.** -/
theorem Replays.same {i : Nat} {put put' : List Delivery}
    (hsame : List.Forall₂ Delivery.Same put put') (hplain : g.Plain)
    (h : Replays g s (put.map (Prod.mk i)) s') (h' : Replays g s (put'.map (Prod.mk i)) s'') :
    put.map (·.item.content) = put'.map (·.item.content) ∧ s' = s'' := by
  induction hsame generalizing s with
  | nil =>
      cases h
      cases h'
      exact ⟨rfl, rfl⟩
  | cons hd _ ih =>
      cases h with
      | cons hcomes hrest =>
          cases h' with
          | cons hcomes' hrest' =>
              obtain ⟨hcontent, rfl⟩ := hd.comes hplain hcomes hcomes'
              obtain ⟨hcontents, hstore⟩ := ih hrest hrest'
              exact ⟨by rw [List.map_cons, List.map_cons, hcontent, hcontents], hstore⟩

end

namespace Server

/-! ## Visits -/

/-- What arrives from a client that sends these pieces, and no more after them if `ended`. -/
def piecewise (pieces : List Bytes) (ended : Bool) : List Arrival :=
  pieces.map .bytes ++ if ended then [.endOfInput] else []

/-- A client connects to the server, sends these pieces, and no more after them if `ended`, and then
nothing is left to do. -/
structure Sends (s₀ : Server) (pieces : List Bytes) (ended : Bool) (run : List Happening)
    (s : Server) : Prop where
  follows : s₀.accept.follow? run = some s
  only : OnlyFrom s₀.connections.length run
  arrives : arrived run s₀.connections.length = piecewise pieces ended
  rest : s.AtRest

/-- Every stream can be sent, however it is cut. -/
theorem exists_sends (s₀ : Server) (pieces : List Bytes) (ended : Bool) :
    ∃ run s, Sends s₀ pieces ended run s := by
  have hi : s₀.connections.length < s₀.accept.connections.length := by
    rw [accept, List.length_append]
    exact Nat.lt_succ_self _
  have hreceives := follow?_receives hi (piecewise pieces ended)
  obtain ⟨moves, s, hmoves, hrest⟩ := exists_rest
    ((piecewise pieces ended).foldl (fun s a => s.receive s₀.connections.length a) s₀.accept)
  refine ⟨_, s, ?_, onlyFrom_receives _ _ moves, arrived_receives _ _ moves, hrest⟩
  rw [follow?_append, hreceives, Option.bind_some]
  exact hmoves

/-- What is known of a visit to `s₀` of a client that has said `said` there: what was put out for it
and what became of the server. -/
structure Visit (g : Gateway) (o : Connection.Options) (s₀ : Server) (said : Transcript)
    (put : List Delivery) (c : Connection) (s : Server) : Prop where
  connection : s.connections[s₀.connections.length]? = some c
  session : c.session = .ofNat (s₀.connections.length + 1)
  completed : ∃ taken, Completed said taken put c
  replays : Replays g s₀.work.store (put.map (Prod.mk s₀.connections.length)) s.work.store
  departure : c.departure? = said.ending
  /-- The client has not broken the connection off. -/
  whole : Arrival.reset ∉ c.inbox
  length : s.connections.length = s₀.connections.length + 1
  others : ∀ j, j ≠ s₀.connections.length → s.connections[j]? = s₀.connections[j]?

section

variable {g : Gateway} {o : Connection.Options} {store : Store} {before run : List Happening}
  {s₀ s : Server} {pieces : List Bytes} {ended : Bool}

theorem reset_not_mem_piecewise (pieces : List Bytes) (ended : Bool) :
    Arrival.reset ∉ piecewise pieces ended := by
  cases ended <;> simp [piecewise]

/-- The run with the visit in it. -/
theorem Sends.whole_run (h : Sends s₀ pieces ended run s)
    (hbefore : (start g o store).follow? before = some s₀) :
    (start g o store).follow? (before ++ .accept :: run) = some s := by
  rw [follow?_append, hbefore]
  exact h.follows

/-- Before the visit nothing has arrived from the client, and in it nothing from another one. -/
theorem Sends.arrived_eq (h : Sends s₀ pieces ended run s)
    (hbefore : (start g o store).follow? before = some s₀) (j : Nat) :
    arrived (before ++ .accept :: run) j =
      if j = s₀.connections.length then piecewise pieces ended else arrived before j := by
  obtain ⟨ledger, history, hbooks, -⟩ := books_run hbefore
  have hsplit : arrived (before ++ .accept :: run) j = arrived before j ++ arrived run j := by
    rw [arrived, List.filterMap_append, List.filterMap_cons_none rfl]
    rfl
  rw [hsplit]
  by_cases hj : j = s₀.connections.length
  · rw [if_pos hj, hj, (hbooks.absent _ (Nat.le_refl _)).1, List.nil_append, h.arrives]
  · have hnone : arrived run j = [] := by
      refine List.filterMap_eq_nil_iff.mpr fun e he => ?_
      rcases h.only e he with ⟨m, rfl⟩ | ⟨a, rfl⟩
      · rfl
      · exact if_neg (Ne.symm hj)
    rw [if_neg hj, hnone, List.append_nil]

/-- **What is known of a visit.** -/
theorem Sends.visit (h : Sends s₀ pieces ended run s) (hplain : g.Plain) (ho : o.ordered = true)
    (hbefore : (start g o store).follow? before = some s₀) (hrest : s₀.AtRest) :
    ∃ put c,
      Visit g o s₀ (.ofArrivals o.maxBuffer [] (piecewise pieces ended)) put c s := by
  obtain ⟨ledger, history, hbooks, hreplays⟩ := books_run hbefore
  have hlength : s₀.accept.connections.length = s₀.connections.length + 1 := by
    rw [accept, List.length_append, List.length_singleton]
  obtain ⟨put, halone⟩ := hbooks.accept.follow_only (fun m hm => hrest.accept hm) h.follows h.only
  obtain ⟨taken, c, past, hc, hsession, hsettled, hst, hcompleted⟩ :=
    halone.completed hreplays hplain ho (by omega) h.rest
  obtain ⟨harrived, -, hput⟩ := hbooks.absent s₀.connections.length (Nat.le_refl _)
  rw [harrived, hput, List.nil_append, List.nil_append, h.arrives] at hst hcompleted
  refine ⟨put, c, hc, hsession, ⟨taken, hcompleted⟩, halone.replays,
    (hst.heard_all hsettled.exhausted).2.symm, fun hmem => ?_, halone.length.trans hlength,
    fun j hj => (halone.others j hj).trans (getElem?_accept_of_ne hj)⟩
  have hinbox := (accounts_run (h.whole_run hbefore)).inbox _ c hc
  rw [h.arrived_eq hbefore, if_pos rfl] at hinbox
  exact reset_not_mem_piecewise pieces ended (hinbox.subset hmem)

/-! ## Two visits -/

/-- The visit of client `i` shows the same on two servers, and leaves the same behind. -/
structure SameVisit (i : Nat) (s s' : Server) : Prop where
  /-- The client has received the same. -/
  received : s.received i = s'.received i
  /-- Both servers have closed the connection, or neither has. -/
  closed : s.isClosed i = s'.isClosed i
  /-- It has ended for the same reason and with the same trouble, or has not ended in either. -/
  departure : (s.connections[i]?).bind Connection.departure? =
    (s'.connections[i]?).bind Connection.departure?
  /-- An observer has heard the same of it. -/
  heard : s.connections.length < 2 ^ 64 →
    s.heardOf (.ofNat (i + 1)) = s'.heardOf (.ofNat (i + 1))
  processed : s.tally.processed = s'.tally.processed
  rejected : s.tally.rejected = s'.tally.rejected
  written : s.tally.written = s'.tally.written
  store : s.work.store = s'.work.store

/-- The bytes that all clients together have received. -/
theorem total_received (s : Server) :
    total (·.writer.sent.length) s.connections =
      ∑ j ∈ Finset.range s.connections.length, (s.received j).length :=
  total_eq_sum _ _ fun j c hc => by rw [received, hc]; rfl

section

variable {said : Transcript} {put put' : List Delivery} {c c' : Connection} {s' : Server}

/-- In two visits of clients that have said the same, the same things are put out. -/
theorem Visit.same (h : Visit g o s₀ said put c s) (h' : Visit g o s₀ said put' c' s') :
    List.Forall₂ Delivery.Same put put' := by
  obtain ⟨taken, hcompleted⟩ := h.completed
  obtain ⟨taken', hcompleted'⟩ := h'.completed
  have hsession : c'.session = c.session := h'.session.trans h.session.symm
  refine hcompleted.forall₂ hcompleted' (fun arguments _ d d' hd hd' => ?_) .farewell
  rw [hsession] at hd'
  exact same_of_request hd hd'

theorem Visit.sent_eq (h : Visit g o s₀ said put c s) (h' : Visit g o s₀ said put' c' s')
    (hplain : g.Plain) : c.writer.sent = c'.writer.sent := by
  obtain ⟨taken, hcompleted⟩ := h.completed
  obtain ⟨taken', hcompleted'⟩ := h'.completed
  have hcontents := (h.replays.same (h.same h') hplain h'.replays).1
  rw [hcompleted.sent, hcompleted'.sent, wire_deliveries, wire_deliveries, hcontents]

theorem Visit.isClosed_eq (h : Visit g o s₀ said put c s) (h' : Visit g o s₀ said put' c' s') :
    c.isClosed = c'.isClosed := by
  obtain ⟨taken, hcompleted⟩ := h.completed
  obtain ⟨taken', hcompleted'⟩ := h'.completed
  have hinbox : c.inbox.contains .reset = c'.inbox.contains .reset := by
    simp [h.whole, h'.whole]
  rw [Connection.isClosed, Connection.isClosed, hcompleted.closed, hcompleted'.closed,
    Connection.isBroken_eq, Connection.isBroken_eq, h.departure, h'.departure, hinbox]

/-- Every client has received the same on both servers: the visitor because the same was put out for
it, the others because they were not served. -/
theorem Visit.received_eq (h : Visit g o s₀ said put c s) (h' : Visit g o s₀ said put' c' s')
    (hplain : g.Plain) (j : Nat) : s.received j = s'.received j := by
  by_cases hj : j = s₀.connections.length
  · rw [received, received, hj, h.connection, h'.connection, Option.map_some, Option.map_some,
      h.sent_eq h' hplain]
  · rw [received, received, h.others j hj, h'.others j hj]

end

end

/-- The counters and what was heard, by what the clients have said, where there has been a visit. -/
theorem Sends.balance {g : Gateway} {o : Connection.Options} {store : Store}
    {before run : List Happening} {s₀ s : Server} {pieces : List Bytes} {ended : Bool}
    (h : Sends s₀ pieces ended run s) (hplain : g.Plain)
    (hbefore : (start g o store).follow? before = some s₀) :
    Balance o (before ++ .accept :: run) s ∧ (∀ c ∈ s.connections, c.writer.isLost = false) ∧
      s.tally.written = .ofNat (total (·.writer.sent.length) s.connections) := by
  have hrun := h.whole_run hbefore
  obtain ⟨ledger, history, hbooks, -⟩ := books_run hrun
  have hbalance := hbooks.balance (accounts_run hrun) hplain.alwaysEnds h.rest
  exact ⟨hbalance, fun _ => hbooks.reached, hbooks.written (accounts_run hrun) hbalance⟩

/-- A client is told that a request is too large only where no request that fits begins. -/
theorem Books.oversized {g : Gateway} {o : Connection.Options} {arrived : Nat → List Arrival}
    {ledger : List Taken} {history : List (Nat × Delivery)} {s : Server}
    (h : Books g o arrived ledger history s) {i : Nat} {c : Connection}
    (hc : s.connections[i]? = some c) (hdeparture : c.departure? = some (.troubled .oversized)) :
    Request.Overfull o.maxBuffer (streamOf (arrived i)) := by
  obtain ⟨-, past, underway, hst⟩ := h.connections i c hc
  have hending : (Transcript.ofArrivals o.maxBuffer [] (arrived i)).ending =
      some (.troubled .oversized) := by
    rw [hst.heard_now, Connection.outlook, departure?_eq.mp hdeparture]
    rfl
  exact Transcript.overfull_of_oversized hending

/-- Two visits that come to the same transcript show the same. -/
theorem Sends.sameVisit {g : Gateway} {o : Connection.Options} {store : Store}
    {before run run' : List Happening} {s₀ s s' : Server} {pieces pieces' : List Bytes}
    {ended : Bool} (h : Sends s₀ pieces ended run s) (h' : Sends s₀ pieces' ended run' s')
    (hplain : g.Plain) (ho : o.ordered = true)
    (hbefore : (start g o store).follow? before = some s₀) (hrest : s₀.AtRest)
    (hsaid : Transcript.ofArrivals o.maxBuffer [] (piecewise pieces ended) =
      .ofArrivals o.maxBuffer [] (piecewise pieces' ended)) :
    SameVisit s₀.connections.length s s' := by
  obtain ⟨put, c, hvisit⟩ := h.visit hplain ho hbefore hrest
  obtain ⟨put', c', hvisit'⟩ := h'.visit hplain ho hbefore hrest
  rw [← hsaid] at hvisit'
  -- the others have said the same as well, so whatever is known from that is the same
  have hall : ∀ j, said o (before ++ .accept :: run) j = said o (before ++ .accept :: run') j := by
    intro j
    rw [said, said, h.arrived_eq hbefore, h'.arrived_eq hbefore]
    by_cases hj : j = s₀.connections.length
    · rw [if_pos hj, if_pos hj, hsaid]
    · rw [if_neg hj, if_neg hj]
  obtain ⟨hbalance, hreached, hwritten⟩ := h.balance hplain hbefore
  obtain ⟨hbalance', hreached', hwritten'⟩ := h'.balance hplain hbefore
  have hlength : s.connections.length = s'.connections.length :=
    hvisit.length.trans hvisit'.length.symm
  have hreceived := hvisit.received_eq hvisit' hplain
  exact
    { received := hreceived _
      closed := by
        rw [isClosed, isClosed, hvisit.connection, hvisit'.connection, Option.any_some,
          Option.any_some, hvisit.isClosed_eq hvisit']
      departure := by
        rw [hvisit.connection, hvisit'.connection, Option.bind_some, Option.bind_some,
          hvisit.departure, hvisit'.departure]
      heard := by
        intro hbound
        have hi : s₀.connections.length < s.connections.length := by
          rw [hvisit.length]
          exact Nat.lt_succ_self _
        rw [hbalance.heard hreached hbound hi, hall,
          hbalance'.heard hreached' (hlength ▸ hbound) (hlength ▸ hi)]
      processed := by
        rw [hbalance.processed, hbalance'.processed, hlength]
        simp only [hall]
      rejected := by
        rw [hbalance.rejected, hbalance'.rejected, hlength]
        simp only [hall]
      written := by
        rw [hwritten, hwritten', total_received, total_received, hlength]
        simp only [hreceived]
      store := (hvisit.replays.same (hvisit.same hvisit') hplain hvisit'.replays).2 }

/-- **How a stream is cut does not show.** A request that fits is not refused for its size, whatever
stands before or behind it: a client that was told so had sent bytes, behind some requests, that
are undecided and begin only requests that are longer than the limit. And where there is room, a
client may send one stream to a server at rest in any pieces: in any two such visits it receives
the same, its connection ends in the same way, and the counters and the store are the same. -/
theorem run_cut {g : Gateway} {o : Connection.Options} {store : Store} {before : List Happening}
    {s₀ : Server} (hbefore : (start g o store).follow? before = some s₀) :
    (∀ i c, s₀.connections[i]? = some c → c.departure? = some (.troubled .oversized) →
      ∃ held unread, Request.Boundary (streamOf (arrived before i)) (held ++ unread) ∧
        Request.decode held = .incomplete ∧
        ∀ t arguments consumed, Request.decode (held ++ t) = .complete arguments consumed →
          o.maxBuffer < consumed) ∧
    (g.Plain → o.ordered = true → s₀.AtRest → ∀ pieces pieces' ended,
      pieces.flatten = pieces'.flatten → Request.Room o.maxBuffer pieces.flatten →
      (∃ run s, Sends s₀ pieces ended run s) ∧
      ∀ run s run' s', Sends s₀ pieces ended run s → Sends s₀ pieces' ended run' s' →
        SameVisit s₀.connections.length s s') := by
  constructor
  · intro i c hc hdeparture
    obtain ⟨ledger, history, hbooks, -⟩ := books_run hbefore
    obtain ⟨held, unread, hboundary, hopen, hfull⟩ := hbooks.oversized hc hdeparture
    exact ⟨held, unread, hboundary, hopen, fun t arguments consumed hd =>
      Request.lt_of_held hopen hfull hd⟩
  · intro hplain ho hrest pieces pieces' ended hcut hroom
    refine ⟨exists_sends s₀ pieces ended, fun run s run' s' h h' => ?_⟩
    refine h.sameVisit h' hplain ho hbefore hrest ?_
    rw [piecewise, piecewise, Transcript.ofArrivals_pieces hroom,
      Transcript.ofArrivals_pieces (hcut ▸ hroom), hcut]

/-- Two requests in three pieces: the first is cut behind its first byte and inside its CRLF. -/
def threePieces : List Happening :=
  [.receive 0 (.bytes [80]), .move (.reader 0), .receive 0 (.bytes [73, 78, 71, 13]),
    .move (.reader 0), .receive 0 (.bytes [10, 80, 73, 78, 71, 13, 10]), .move (.reader 0),
    .move (.reader 0), .move (.land 0 0), .move (.reader 0), .move (.land 0 1),
    .move (.writer 0), .move (.writer 0), .move (.writer 0), .move (.writer 0),
    .receive 0 .endOfInput, .move (.reader 0), .move (.release 0), .move (.writer 0),
    .move (.writer 0), .move (.depart 0)]

/-- The same requests in one piece. -/
def onePiece : List Happening :=
  [.receive 0 (.bytes [80, 73, 78, 71, 13, 10, 80, 73, 78, 71, 13, 10]), .receive 0 .endOfInput,
    .move (.reader 0), .move (.reader 0), .move (.land 0 0), .move (.reader 0),
    .move (.land 0 1), .move (.writer 0), .move (.reader 0), .move (.writer 0),
    .move (.writer 0), .move (.writer 0), .move (.release 0), .move (.writer 0),
    .move (.writer 0), .move (.depart 0)]

/-- A server that has room for six bytes is sent requests of six bytes. -/
theorem run_cut_exact_fit :
    ∃ s s', Sends (start { routes := .own } { maxBuffer := 6 } .fresh)
        [[80], [73, 78, 71, 13], [10, 80, 73, 78, 71, 13, 10]] true threePieces s ∧
      Sends (start { routes := .own } { maxBuffer := 6 } .fresh)
        [[80, 73, 78, 71, 13, 10, 80, 73, 78, 71, 13, 10]] true onePiece s' ∧
      s.received 0 = [43, 80, 79, 78, 71, 13, 10, 43, 80, 79, 78, 71, 13, 10] ∧
      SameVisit 0 s s' := by
  have heval : ((start { routes := .own } { maxBuffer := 6 } .fresh).accept.follow?
      threePieces).map (fun s => (s.received 0, s.connections.all isOver)) =
        some ([43, 80, 79, 78, 71, 13, 10, 43, 80, 79, 78, 71, 13, 10], true) := by
    decide +kernel
  have heval' : ((start { routes := .own } { maxBuffer := 6 } .fresh).accept.follow?
      onePiece).map (·.connections.all isOver) = some true := by
    decide +kernel
  obtain ⟨s, hrun, hs⟩ := Option.map_eq_some_iff.mp heval
  obtain ⟨s', hrun', hover'⟩ := Option.map_eq_some_iff.mp heval'
  obtain ⟨hreceived, hover⟩ := Prod.mk.inj hs
  have hsends : Sends (start { routes := .own } { maxBuffer := 6 } .fresh)
      [[80], [73, 78, 71, 13], [10, 80, 73, 78, 71, 13, 10]] true threePieces s :=
    ⟨hrun, by simp [OnlyFrom, threePieces, start], rfl, atRest_of_all hover⟩
  have hsends' : Sends (start { routes := .own } { maxBuffer := 6 } .fresh)
      [[80, 73, 78, 71, 13, 10, 80, 73, 78, 71, 13, 10]] true onePiece s' :=
    ⟨hrun', by simp [OnlyFrom, onePiece, start], rfl, atRest_of_all hover'⟩
  have hroom : Request.Room 6 [80, 73, 78, 71, 13, 10, 80, 73, 78, 71, 13, 10] :=
    Request.room_of_requests (by decide) (by decide) (by decide)
  have hstart : (start { routes := .own } { maxBuffer := 6 } .fresh).follow? [] =
      some (start { routes := .own } { maxBuffer := 6 } .fresh) := rfl
  obtain ⟨-, hsame⟩ := (run_cut hstart).2 ⟨rfl, rfl⟩ rfl (atRest_of_all rfl)
    [[80], [73, 78, 71, 13], [10, 80, 73, 78, 71, 13, 10]]
    [[80, 73, 78, 71, 13, 10, 80, 73, 78, 71, 13, 10]] true rfl hroom
  exact ⟨s, s', hsends, hsends', hreceived, hsame _ _ _ _ hsends hsends'⟩

end Server

end RespGateway
