import RespGateway.Proofs.Serves

/-!
# One client at a time

Between two visits a server is at rest. A visit is what one client does: it connects, or
something arrives from it, in any number of pieces and with any moves of the server in
between, until the server is at rest again. Nothing happens to the other connections in
the meantime (`Books.follow_only`), so what a visit puts out is for its client alone, and
answers the requests that its arrivals add to what it had said before.
-/

namespace RespGateway

/-! ## What a visit adds -/

/-- A transcript that goes on after requests that have been answered. -/
theorem Completed.extend {said : Transcript} {past : List (List Bytes)} {taken : List Taken}
    {old put : List Delivery} {c : Connection}
    (h : Completed (said.after past) taken (old ++ put) c) (hold : Answers c.session past old) :
    ∃ answers, put = answers ++ said.farewell.map Delivery.farewell ∧
      Answers c.session said.requests answers := by
  obtain ⟨all, hput, hall⟩ := h.answers
  change old ++ put = all ++ said.farewell.map Delivery.farewell at hput
  have hlength : old.length ≤ all.length := by
    have hpast := hold.length_eq
    have hrequests := hall.length_eq
    rw [Transcript.after, List.length_append] at hrequests
    omega
  -- what was put out before answers the first requests, so it is all in `all`
  obtain ⟨answers, rfl, hrest⟩ : ∃ answers, all = old ++ answers ∧
      put = answers ++ said.farewell.map Delivery.farewell := by
    rcases List.append_eq_append_iff.mp hput with ⟨answers, hall, hput⟩ | ⟨answers, hold, hput⟩
    · exact ⟨answers, hall, hput⟩
    · have hnil : answers = [] := by
        rw [hold, List.length_append] at hlength
        exact List.eq_nil_of_length_eq_zero (by omega)
      subst hnil
      rw [List.append_nil] at hold
      exact ⟨[], by rw [List.append_nil, hold], by simpa using hput.symm⟩
  refine ⟨answers, hrest, ?_⟩
  have hdrop := List.forall₂_drop_append _ _ _ hall
  rwa [← hold.length_eq, Transcript.after, List.drop_left] at hdrop

/-- What clients are told at the end leaves the store as it is. -/
theorem Replays.farewells {g : Gateway} {s s' : Store} {i : Nat} {farewells : List Reply}
    (h : Replays g s ((farewells.map Delivery.farewell).map (Prod.mk i)) s') : s = s' := by
  induction farewells with
  | nil =>
      cases h
      rfl
  | cons r farewells ih =>
      cases h with
      | cons hcomes hrest =>
          cases hcomes
          exact ih hrest

namespace Server

/-! ## Moves of other connections -/

theorem stepReader?_congr {s s' : Server} (h : s.options = s'.options) (i : Nat)
    (c : Connection) : s.stepReader? i c = none ↔ s'.stepReader? i c = none := by
  unfold stepReader?
  cases c.reader with
  | reading =>
      cases Request.decode c.buffer with
      | complete arguments consumed => exact iff_of_false (by simp) (by simp)
      | malformed fault => exact iff_of_false (by simp) (by simp)
      | incomplete =>
          dsimp only
          rw [h]
          split
          · exact iff_of_false (by simp) (by simp)
          · unfold readArrival?
            cases c.inbox with
            | nil => exact Iff.rfl
            | cons a inbox => cases a <;> exact iff_of_false (by simp) (by simp)
  | draining x =>
      dsimp only
      split
      · exact iff_of_false (by simp) (by simp)
      · exact Iff.rfl
  | awaiting ticket last => exact Iff.rfl
  | finished why => exact Iff.rfl

theorem bind_none_congr {α β : Type} {x x' : Option α} {f f' : α → Option β} (h : x = x')
    (hf : ∀ a, f a = none ↔ f' a = none) : x.bind f = none ↔ x'.bind f' = none := by
  subst h
  cases x with
  | none => exact Iff.rfl
  | some a => exact hf a

/-- Whether a move is possible is a matter of its connection. -/
theorem perform?_congr {s s' : Server} {m : Move}
    (hc : s.connections[m.connection]? = s'.connections[m.connection]?)
    (ho : s.options = s'.options) : s.perform? m = none ↔ s'.perform? m = none := by
  cases m with
  | reader i => exact bind_none_congr hc fun c => stepReader?_congr ho i c
  | land i ticket =>
      refine bind_none_congr hc fun c => ?_
      rw [land?, land?]
      split
      · exact Iff.rfl
      · exact iff_of_false (by simp) (by simp)
  | writer i =>
      refine bind_none_congr hc fun c => ?_
      exact Option.map_eq_none_iff.trans Option.map_eq_none_iff.symm
  | release i =>
      refine bind_none_congr hc fun c => ?_
      rw [release?, release?]
      split
      · exact iff_of_false (by simp) (by simp)
      · exact Iff.rfl
  | depart i =>
      refine bind_none_congr hc fun c => ?_
      rw [depart?, depart?]
      cases c.reader with
      | finished why =>
          dsimp only
          split
          · exact iff_of_false (by simp) (by simp)
          · exact Iff.rfl
      | _ => exact Iff.rfl

/-- A client that connects to a server at rest gives nobody else anything to do. -/
theorem AtRest.accept {s : Server} (h : s.AtRest) {m : Move}
    (hm : m.connection ≠ s.connections.length) : s.accept.perform? m = none :=
  (perform?_congr (getElem?_accept_of_ne hm).symm rfl).mp (h m)

/-- Nothing comes from outside in a run but from one client. -/
def OnlyFrom (i : Nat) (run : List Happening) : Prop :=
  ∀ e ∈ run, (∃ m, e = .move m) ∨ ∃ a, e = .receive i a

/-- What a run put out for one client alone, and what became of the server. -/
structure Alone (g : Gateway) (o : Connection.Options) (arrived : Nat → List Arrival)
    (ledger : List Taken) (history : List (Nat × Delivery)) (s : Server) (i : Nat)
    (run : List Happening) (put : List Delivery) (s' : Server) : Prop where
  books : ∃ new, Books g o (fun j => arrived j ++ Server.arrived run j) (ledger ++ new)
    (history ++ put.map (Prod.mk i)) s'
  replays : Replays g s.work.store (put.map (Prod.mk i)) s'.work.store
  length : s'.connections.length = s.connections.length
  others : ∀ j, j ≠ i → s'.connections[j]? = s.connections[j]?

section

variable {g : Gateway} {o : Connection.Options} {arrived : Nat → List Arrival}
  {ledger : List Taken} {history : List (Nat × Delivery)} {s s₁ s₂ : Server} {i : Nat}
  {run : List Happening} {put : List Delivery}

/-- The server makes a move for the client. -/
theorem Alone.move (h : Alone g o arrived ledger history s i run put s₁) {m : Move}
    (hm : m.connection = i) (hstep : s₁.perform? m = some s₂) :
    ∃ put', Alone g o arrived ledger history s i (run ++ [.move m]) (put ++ put') s₂ := by
  obtain ⟨new, hbooks⟩ := h.books
  obtain ⟨new', put', hbooks', hreplays'⟩ := hbooks.move hstep
  rw [hm] at hbooks' hreplays'
  obtain ⟨c, -, heffect⟩ := perform?_effect hstep
  obtain ⟨c', hc'⟩ := heffect.connections
  refine ⟨put', ⟨new ++ new', ?_⟩, ?_, ?_, ?_⟩
  · rw [← List.append_assoc, List.map_append, ← List.append_assoc]
    simpa [arrived_concat, Server.arrived] using hbooks'
  · rw [List.map_append]
    exact h.replays.append hreplays'
  · rw [hc', List.length_set]
    exact h.length
  · intro j hj
    rw [hc', hm, List.getElem?_set_ne (Ne.symm hj)]
    exact h.others j hj

/-- Something arrives from the client. -/
theorem Alone.receive (h : Alone g o arrived ledger history s i run put s₁)
    (hi : i < s₁.connections.length) (a : Arrival) :
    Alone g o arrived ledger history s i (run ++ [.receive i a]) put (s₁.receive i a) := by
  obtain ⟨new, hbooks⟩ := h.books
  have hc : s₁.connections[i]? = some s₁.connections[i] := List.getElem?_eq_getElem hi
  refine ⟨⟨new, ?_⟩, ?_, ?_, ?_⟩
  · simpa only [arrived_concat, ← List.append_assoc] using hbooks.receive hi a
  · rw [Server.receive, hc]
    exact h.replays
  · rw [Server.receive, hc]
    exact List.length_set.trans h.length
  · intro j hj
    rw [Server.receive, hc]
    exact (List.getElem?_set_ne (Ne.symm hj)).trans (h.others j hj)

/-- **Only one client does anything in a run, and nothing is left to do for the others**: then all
that is put out is for that client. -/
theorem Books.follow_only (h : Books g o arrived ledger history s)
    (hstill : ∀ m : Move, m.connection ≠ i → s.perform? m = none)
    (hrun : s.follow? run = some s₁) (honly : OnlyFrom i run) :
    ∃ put, Alone g o arrived ledger history s i run put s₁ := by
  revert honly
  refine follow?_induction (P := fun run s' => OnlyFrom i run →
    ∃ put, Alone g o arrived ledger history s i run put s') ?_ ?_ hrun
  · intro _
    refine ⟨[], ⟨[], ?_⟩, .nil _, rfl, fun j _ => rfl⟩
    simpa [Server.arrived] using h
  · intro run s' e s'' _ ih hstep honly
    obtain ⟨put, halone⟩ := ih fun e' he' => honly e' (List.mem_append_left _ he')
    obtain ⟨new, hbooks⟩ := halone.books
    rcases honly e (List.mem_append_right _ (List.mem_singleton_self e)) with ⟨m, rfl⟩ | ⟨a, rfl⟩
    · by_cases hm : m.connection = i
      · obtain ⟨put', halone'⟩ := halone.move hm hstep
        exact ⟨_, halone'⟩
      · -- a move of another connection was impossible from the start
        have hnone := (perform?_congr (halone.others _ hm)
          (hbooks.options.trans h.options.symm)).mpr (hstill m hm)
        rw [show s'.happen? (.move m) = s'.perform? m from rfl, hnone] at hstep
        cases hstep
    · by_cases hi : i < s'.connections.length
      · rw [happen?, if_pos hi] at hstep
        cases hstep
        exact ⟨put, halone.receive hi a⟩
      · rw [happen?, if_neg hi] at hstep
        cases hstep

theorem Alone.records (h : Alone g o arrived ledger history s i run put s₁) {store : Store}
    (hreplays : Replays g store history s.work.store) :
    ∃ arrived' ledger' history', Books g o arrived' ledger' history' s₁ ∧
      Replays g store history' s₁.work.store := by
  obtain ⟨new, hbooks⟩ := h.books
  exact ⟨_, _, _, hbooks, hreplays.append h.replays⟩

/-- All is done for the client once the server is at rest. -/
theorem Alone.completed (h : Alone g o arrived ledger history s i run put s₁) {store : Store}
    (hreplays : Replays g store history s.work.store) (hplain : g.Plain) (ho : o.ordered = true)
    (hi : i < s.connections.length) (hrest : s₁.AtRest) :
    ∃ taken c past, s₁.connections[i]? = some c ∧ c.session = UInt64.ofNat (i + 1) ∧
      c.Settled o ∧
      Standing g o (arrived i ++ Server.arrived run i) taken (putOut i history ++ put) c past [] ∧
      Completed (.ofArrivals o.maxBuffer [] (arrived i ++ Server.arrived run i)) taken
        (putOut i history ++ put) c := by
  obtain ⟨new, hbooks⟩ := h.books
  have hi' : i < s₁.connections.length := h.length ▸ hi
  have hc : s₁.connections[i]? = some s₁.connections[i] := List.getElem?_eq_getElem hi'
  obtain ⟨hsettled, past, hst⟩ := hbooks.settled hplain.alwaysEnds hrest hc
  have hcompleted := hbooks.completed (hreplays.append h.replays) ho hplain.keepsCommands
    hplain.alwaysEnds hrest hc
  rw [putOut_append, putOut_own] at hst hcompleted
  exact ⟨_, _, past, hc, (hbooks.connections i _ hc).1, hsettled, hst, hcompleted⟩

end

/-! ## A client between two visits -/

/-- A connection is where the reference has the client. -/
structure Shows (client : Reference.Client) (c : Connection) : Prop where
  received : c.writer.sent = client.received
  stopped : c.writer.isStopped = !client.isOpen
  reading : client.isOpen = true → c.reader = .reading ∧ c.buffer = client.unread
  finished : client.isOpen = false → c.isFinished = true

/-- A connection at rest shows what has been heard of its client. -/
theorem shows_of_rest {g : Gateway} {o : Connection.Options} {arrived : List Arrival}
    {taken : List Taken} {put : List Delivery} {c : Connection} {past past' : List (List Bytes)}
    (hst : Standing g o arrived taken put c past []) (hsettled : c.Settled o)
    {said : Transcript} (hsaid : Transcript.ofArrivals o.maxBuffer [] arrived = said.after past')
    (hcompleted : Completed (said.after past') taken put c) :
    Shows ⟨said.rest, c.writer.sent, said.ending.isNone⟩ c := by
  have hheard := hst.heard_exhausted hsettled.exhausted
  rw [hsaid] at hheard
  refine ⟨rfl, ?_, ?_, ?_⟩
  · rw [hcompleted.closed]
    change said.ending.isSome = !said.ending.isNone
    cases said.ending <;> rfl
  · intro hopen
    cases hsettled with
    | listening hreader _ _ _ _ _ =>
        rw [hreader] at hheard
        exact ⟨hreader, (congrArg Transcript.rest hheard).symm⟩
    | ended hreader _ _ =>
        rw [hreader] at hheard
        have hending : said.ending = some _ := congrArg Transcript.ending hheard
        rw [hending] at hopen
        cases hopen
  · intro hclosed
    cases hsettled with
    | listening hreader _ _ _ _ _ =>
        rw [hreader] at hheard
        have hending : said.ending = none := congrArg Transcript.ending hheard
        rw [hending] at hclosed
        cases hclosed
    | ended hreader _ _ => rw [Connection.isFinished, hreader]

/-! ## Visits -/

section

variable {g : Gateway} {o : Connection.Options} {store : Store} {arrived : Nat → List Arrival}
  {ledger : List Taken} {history : List (Nat × Delivery)} {s s' : Server} {i : Nat}
  {c : Connection}

/-- A connection that waits for more from its client, with all it has heard answered. -/
structure Listening (g : Gateway) (o : Connection.Options) (arrived : List Arrival)
    (taken : List Taken) (put : List Delivery) (c : Connection) (past : List (List Bytes)) :
    Prop where
  standing : Standing g o arrived taken put c past []
  reading : c.reader = .reading
  inbox : c.inbox = []
  answers : Answers c.session past put
  sent : c.writer.sent = wire (put.map Delivery.item)

theorem wire_deliveries (put : List Delivery) :
    wire (put.map Delivery.item) = (put.map (·.item.content)).flatMap Reply.encode := by
  rw [wire, List.flatMap_map, List.flatMap_map]

/-- **A visit to a client that is heard.** The requests that it adds are answered as by the
reference, and the client is where the reference has it. -/
theorem Books.visit (h : Books g o arrived ledger history s)
    (hreplays : Replays g store history s.work.store) (hplain : g.Plain)
    (hlimit : g.limit ≠ some 0) (ho : o.ordered = true) (hc : s.connections[i]? = some c)
    {past : List (List Bytes)}
    (hlistening : Listening g o (arrived i) (takenOn i ledger) (putOut i history) c past)
    (hstill : ∀ m : Move, m.connection ≠ i → s.perform? m = none) {run : List Happening}
    (hrun : s.follow? run = some s') (honly : OnlyFrom i run) (hrest : s'.AtRest)
    {t : Store.Table} (ht : s.work.store.Holds t) {said : Transcript}
    (hsaid : said = .ofArrivals o.maxBuffer c.buffer (Server.arrived run i)) :
    (∃ arrived' ledger' history', Books g o arrived' ledger' history' s' ∧
      Replays g store history' s'.work.store) ∧
    s'.work.store.Holds (Reference.serveAll t said.requests).2 ∧
    s'.connections.length = s.connections.length ∧
    (∃ c', s'.connections[i]? = some c' ∧
      Shows ⟨said.rest, c.writer.sent ++ ((Reference.serveAll t said.requests).1 ++
        said.farewell).flatMap Reply.encode, said.ending.isNone⟩ c') ∧
    ∀ j, j ≠ i → s'.connections[j]? = s.connections[j]? := by
  obtain ⟨put, halone⟩ := h.follow_only hstill hrun honly
  obtain ⟨taken, c', past', hc', hsession, hsettled, hst', hcompleted⟩ :=
    halone.completed hreplays hplain ho (List.getElem?_eq_some_iff.mp hc).1 hrest
  have hsame : c.session = c'.session := (h.connections i c hc).1.trans hsession.symm
  have hheard : Transcript.ofArrivals o.maxBuffer [] (arrived i ++ Server.arrived run i) =
      said.after past := by
    rw [hlistening.standing.heard, Connection.outlook, hlistening.reading, hlistening.inbox, hsaid]
    rfl
  rw [hheard] at hcompleted
  obtain ⟨answers, rfl, hanswers⟩ := hcompleted.extend (hsame ▸ hlistening.answers)
  have hput := halone.replays
  rw [List.map_append] at hput
  obtain ⟨hreplies, s₁, hholds, hfarewells⟩ := replays_serveAll hplain hlimit hanswers hput ht
  have hsent : c'.writer.sent = c.writer.sent ++
      ((Reference.serveAll t said.requests).1 ++ said.farewell).flatMap Reply.encode := by
    have hfarewell : said.farewell.map (fun r => (Delivery.farewell r).item.content) =
        said.farewell := List.map_id _
    rw [hcompleted.sent, List.map_append, wire_append, ← hlistening.sent, wire_deliveries,
      List.map_append, hreplies, List.map_map, Function.comp_def, hfarewell]
  refine ⟨halone.records hreplays, ?_, halone.length, ⟨c', hc', ?_⟩, halone.others⟩
  · rw [← hfarewells.farewells]
    exact hholds
  · rw [← hsent]
    exact shows_of_rest hst' hsettled hheard hcompleted

end

end Server

end RespGateway
