import RespGateway.Proofs.Visits

/-!
# A plain gateway refines the reference

Clients visit a server one at a time, in any order: each visit is over when the server is
at rest again. However the arrivals of a visit are cut, and whichever moves the server
makes in between, every client of a plain gateway in ordered mode receives what the
reference server sends it, and is closed when the reference does not hear it any more.
-/

namespace RespGateway

/-- What one client does. -/
inductive Visit where
  | connect
  /-- Something arrives from a client. -/
  | send (i : Nat) (arrivals : List Arrival)
  deriving DecidableEq, Repr

/-- The reference after a visit. -/
def Reference.visit (r : Reference) : Visit → Reference
  | .connect => r.connect
  | .send i arrivals => r.hear i arrivals

/-- Nothing is put out for a client once all has been done. -/
theorem Completed.nothing_more {said : Transcript} {taken taken' : List Taken}
    {old put : List Delivery} {c c' : Connection} (h : Completed said taken old c)
    (h' : Completed said taken' (old ++ put) c') : put = [] := by
  obtain ⟨answers, hput, hanswers⟩ := h.answers
  obtain ⟨answers', hput', hanswers'⟩ := h'.answers
  have hlengths := congrArg List.length hput
  have hlengths' := congrArg List.length hput'
  rw [List.length_append, List.length_map] at hlengths
  rw [List.length_append, List.length_append, List.length_map] at hlengths'
  have := hanswers.length_eq
  have := hanswers'.length_eq
  exact List.eq_nil_of_length_eq_zero (by omega)

/-- What arrives once the reader has ended is not heard. -/
theorem Standing.heard_finished {g : Gateway} {o : Connection.Options} {arrived : List Arrival}
    {taken : List Taken} {put : List Delivery} {c : Connection} {past : List (List Bytes)}
    {underway : List Taken} (h : Standing g o arrived taken put c past underway)
    (hfinished : c.isFinished = true) (later : List Arrival) :
    Transcript.ofArrivals o.maxBuffer [] (arrived ++ later) =
      Transcript.ofArrivals o.maxBuffer [] arrived := by
  rw [h.heard, h.heard_now]
  unfold Connection.isFinished at hfinished
  unfold Connection.outlook
  cases hreader : c.reader with
  | finished why => rfl
  | _ => simp [hreader] at hfinished

namespace Server

/-- What becomes of a server in a visit. It makes any moves until none is left to make, and then
any time may pass. -/
inductive Visited (s : Server) : Visit → Server → Prop where
  | connect {moves : List Move} {s' : Server} (time : Nat) :
      s.accept.follow? (moves.map .move) = some s' → s'.AtRest →
      Visited s .connect { s' with clock := time }
  | send {i : Nat} {run : List Happening} {s' : Server} (time : Nat) :
      i < s.connections.length → OnlyFrom i run → s.follow? run = some s' → s'.AtRest →
      Visited s (.send i (arrived run i)) { s' with clock := time }

/-- What becomes of a server in visits one after another. -/
inductive Paced : Server → List Visit → Server → Prop where
  | nil (s : Server) : Paced s [] s
  | cons {s s' s'' : Server} {v : Visit} {visits : List Visit} :
      s.Visited v s' → Paced s' visits s'' → Paced s (v :: visits) s''

/-- A server at rest is where the reference is. -/
structure Mirrors (g : Gateway) (o : Connection.Options) (store : Store) (r : Reference)
    (s : Server) : Prop where
  records : ∃ arrived ledger history, Books g o arrived ledger history s ∧
    Replays g store history s.work.store
  rest : s.AtRest
  space : r.maxBuffer = o.maxBuffer
  table : s.work.store.Holds r.table
  length : r.clients.length = s.connections.length
  clients : ∀ (i : Nat) (c : Connection), s.connections[i]? = some c →
    ∃ client, r.clients[i]? = some client ∧ Shows client c

theorem mirrors_start (g : Gateway) (o : Connection.Options)
    (place : Bytes → Fin Store.shardCount) :
    Mirrors g o (.empty place) { maxBuffer := o.maxBuffer } (start g o (.empty place)) where
  records := ⟨_, [], [], books_start g o _, .nil _⟩
  rest m := by cases m <;> rfl
  space := rfl
  table := Store.holds_empty place
  length := rfl
  clients i c hc := by simp [start] at hc

namespace Mirrors

variable {g : Gateway} {o : Connection.Options} {store : Store} {r : Reference} {s s' : Server}

/-- Time passes. -/
theorem wait (h : Mirrors g o store r s) (time : Nat) :
    Mirrors g o store r { s with clock := time } where
  records := by
    obtain ⟨arrived, ledger, history, hbooks, hreplays⟩ := h.records
    exact ⟨arrived, ledger, history, { hbooks with }, hreplays⟩
  rest m := (@perform?_congr s { s with clock := time } m rfl rfl).mp (h.rest m)
  space := h.space
  table := h.table
  length := h.length
  clients := h.clients

/-- The reference and the server after a visit to a client that is heard. -/
theorem of_visit {i : Nat} {client : Reference.Client} {t : Store.Table} {s₁ : Server}
    (hspace : r.maxBuffer = o.maxBuffer) (hlength : r.clients.length = s₁.connections.length)
    (hclients : ∀ j, j ≠ i → ∀ c, s₁.connections[j]? = some c →
      ∃ client, r.clients[j]? = some client ∧ Shows client c)
    (hrecords : ∃ arrived ledger history, Books g o arrived ledger history s' ∧
      Replays g store history s'.work.store) (hrest : s'.AtRest)
    (htable : s'.work.store.Holds t) (hsame : s'.connections.length = s₁.connections.length)
    (hshows : ∃ c', s'.connections[i]? = some c' ∧ Shows client c')
    (hothers : ∀ j, j ≠ i → s'.connections[j]? = s₁.connections[j]?) :
    Mirrors g o store { r with table := t, clients := r.clients.set i client } s' where
  records := hrecords
  rest := hrest
  space := hspace
  table := htable
  length := by
    rw [List.length_set, hlength, hsame]
  clients := by
    intro j c hc
    by_cases hj : j = i
    · subst hj
      obtain ⟨c', hc', hshows⟩ := hshows
      rw [hc] at hc'
      cases hc'
      have hi := (List.getElem?_eq_some_iff.mp hc).1
      exact ⟨client, List.getElem?_set_self (by omega), hshows⟩
    · rw [hothers j hj] at hc
      obtain ⟨client', hclient', hshows'⟩ := hclients j hj c hc
      exact ⟨client', (List.getElem?_set_ne (Ne.symm hj)).trans hclient', hshows'⟩

end Mirrors

/-- A connection of a server at rest that is heard. -/
theorem listening_of_rest {g : Gateway} {o : Connection.Options} {arrived : List Arrival}
    {taken : List Taken} {put : List Delivery} {c : Connection} {past : List (List Bytes)}
    (hst : Standing g o arrived taken put c past []) (hsettled : c.Settled o)
    (hreading : c.reader = .reading)
    (hcompleted : Completed (.ofArrivals o.maxBuffer [] arrived) taken put c) :
    Listening g o arrived taken put c past := by
  have hheard := hst.heard_exhausted hsettled.exhausted
  rw [hreading] at hheard
  rw [hheard] at hcompleted
  obtain ⟨answers, hput, hanswers⟩ := hcompleted.answers
  simp only [Transcript.farewell, Option.bind_none, Option.map_none, Option.toList_none,
    List.map_nil, List.append_nil] at hput
  subst hput
  refine ⟨hst, hreading, ?_, hanswers, hcompleted.sent⟩
  cases hsettled with
  | listening _ _ _ hinbox _ _ => exact hinbox
  | ended hreader _ _ =>
      rw [hreading] at hreader
      cases hreader


namespace Mirrors

variable {g : Gateway} {o : Connection.Options} {store : Store} {r : Reference} {s s' : Server}
  {i : Nat} {run : List Happening} {client : Reference.Client}

/-- Something arrives from a client that is heard. -/
theorem send_open (h : Mirrors g o store r s) (hplain : g.Plain) (hlimit : g.limit ≠ some 0)
    (ho : o.ordered = true) {c : Connection} (hc : s.connections[i]? = some c)
    (hclient : r.clients[i]? = some client) (hshows : Shows client c)
    (hopen : client.isOpen = true) (honly : OnlyFrom i run) (hrun : s.follow? run = some s')
    (hrest : s'.AtRest) : Mirrors g o store (r.hear i (arrived run i)) s' := by
  obtain ⟨arrivals, ledger, history, hbooks, hreplays⟩ := h.records
  obtain ⟨hsettled, past, hst⟩ := hbooks.settled hplain.alwaysEnds h.rest hc
  have hcompleted :=
    hbooks.completed hreplays ho hplain.keepsCommands hplain.alwaysEnds h.rest hc
  obtain ⟨hreading, hunread⟩ := hshows.reading hopen
  have hlistening := listening_of_rest hst hsettled hreading hcompleted
  obtain ⟨hrecords, htable, hlength, hshows', hothers⟩ := hbooks.visit hreplays hplain hlimit ho hc
    hlistening (fun m _ => h.rest m) hrun honly hrest h.table rfl
  rw [Reference.hear_open hclient hopen, h.space, ← hunread, Reference.heard, ← hshows.received]
  exact of_visit h.space h.length (fun j _ => h.clients j) hrecords hrest htable hlength hshows'
    hothers

/-- Something arrives from a client that is not heard. -/
theorem send_closed (h : Mirrors g o store r s) (hplain : g.Plain) (ho : o.ordered = true)
    {c : Connection} (hc : s.connections[i]? = some c)
    (hclient : r.clients[i]? = some client) (hshows : Shows client c)
    (hclosed : client.isOpen = false) (honly : OnlyFrom i run) (hrun : s.follow? run = some s')
    (hrest : s'.AtRest) : Mirrors g o store (r.hear i (arrived run i)) s' := by
  obtain ⟨arrivals, ledger, history, hbooks, hreplays⟩ := h.records
  obtain ⟨hsettled, past, hst⟩ := hbooks.settled hplain.alwaysEnds h.rest hc
  have hcompleted :=
    hbooks.completed hreplays ho hplain.keepsCommands hplain.alwaysEnds h.rest hc
  obtain ⟨put, halone⟩ := hbooks.follow_only (fun m _ => h.rest m) hrun honly
  obtain ⟨taken, c', past', hc', -, hsettled', hst', hcompleted'⟩ :=
    halone.completed hreplays hplain ho (List.getElem?_eq_some_iff.mp hc).1 hrest
  -- what arrives is not heard, so nothing is put out for the client
  have hheard := hst.heard_finished (hshows.finished hclosed) (arrived run i)
  rw [hheard] at hcompleted'
  obtain rfl := hcompleted.nothing_more hcompleted'
  have hending : (Transcript.ofArrivals o.maxBuffer [] (arrivals i)).ending.isNone = false := by
    have hsome := hcompleted.closed.symm.trans hshows.stopped
    rw [hclosed] at hsome
    rw [← Option.not_isSome, hsome]
    rfl
  have hsaid : Transcript.ofArrivals o.maxBuffer [] (arrivals i ++ arrived run i) =
      (Transcript.ofArrivals o.maxBuffer [] (arrivals i)).after [] := hheard
  have hfinished' := (shows_of_rest hst' hsettled' hsaid hcompleted').finished hending
  rw [Reference.hear_closed hclient hclosed]
  refine ⟨halone.records hreplays, hrest, h.space, ?_, h.length.trans halone.length.symm, ?_⟩
  · rw [← @Replays.farewells g _ _ i [] halone.replays]
    exact h.table
  · intro j d hd
    by_cases hj : j = i
    · subst hj
      rw [hc'] at hd
      cases hd
      refine ⟨client, hclient, ?_, ?_, fun hopen => ?_, fun _ => hfinished'⟩
      · rw [hcompleted'.sent, List.append_nil, ← hcompleted.sent, hshows.received]
      · rw [hcompleted'.closed, ← hcompleted.closed, hshows.stopped]
      · rw [hclosed] at hopen
        cases hopen
    · rw [halone.others j hj] at hd
      exact h.clients j d hd

/-- Something arrives from a client. -/
theorem send (h : Mirrors g o store r s) (hplain : g.Plain) (hlimit : g.limit ≠ some 0)
    (ho : o.ordered = true) (hi : i < s.connections.length) (honly : OnlyFrom i run)
    (hrun : s.follow? run = some s') (hrest : s'.AtRest) :
    Mirrors g o store (r.hear i (arrived run i)) s' := by
  have hc : s.connections[i]? = some s.connections[i] := List.getElem?_eq_getElem hi
  obtain ⟨client, hclient, hshows⟩ := h.clients i _ hc
  cases hopen : client.isOpen with
  | true => exact h.send_open hplain hlimit ho hc hclient hshows hopen honly hrun hrest
  | false => exact h.send_closed hplain ho hc hclient hshows hopen honly hrun hrest

/-- A client connects. -/
theorem connect (h : Mirrors g o store r s) (hplain : g.Plain) (hlimit : g.limit ≠ some 0)
    (ho : o.ordered = true) {moves : List Move}
    (hrun : s.accept.follow? (moves.map .move) = some s') (hrest : s'.AtRest) :
    Mirrors g o store r.connect s' := by
  obtain ⟨arrivals, ledger, history, hbooks, hreplays⟩ := h.records
  obtain ⟨harrivals, htaken, hput⟩ := hbooks.absent s.connections.length (Nat.le_refl _)
  have hc : s.accept.connections[s.connections.length]? =
      some { session := UInt64.ofNat (s.connections.length + 1) } := List.getElem?_concat_length
  -- nothing has arrived from the client, and it may be refused all the same
  have hlistening : Listening g o (arrivals s.connections.length)
      (takenOn s.connections.length ledger) (putOut s.connections.length history)
      { session := UInt64.ofNat (s.connections.length + 1) } [] := by
    rw [harrivals, htaken, hput]
    exact ⟨standing_init g o _, rfl, rfl, .nil, rfl⟩
  have hnothing : arrived (moves.map .move) s.connections.length = [] := by
    simp [arrived]
  have honly : OnlyFrom s.connections.length (moves.map .move) := by
    intro e he
    obtain ⟨m, -, rfl⟩ := List.mem_map.mp he
    exact .inl ⟨m, rfl⟩
  obtain ⟨hrecords, htable, hlength, hshows, hothers'⟩ := hbooks.accept.visit hreplays hplain
    hlimit ho hc hlistening (fun m hm => h.rest.accept hm) hrun honly hrest h.table rfl
  have hclient : (r.clients ++ [({} : Reference.Client)])[r.clients.length]? = some {} :=
    List.getElem?_concat_length
  rw [Reference.connect, Reference.hear_open hclient rfl]
  dsimp only
  rw [congrArg (Transcript.ofArrivals · [] []) h.space, h.length, Reference.heard]
  rw [hnothing] at htable hshows
  refine of_visit (r := { r with clients := r.clients ++ [{}] }) h.space ?_ ?_ hrecords hrest
    htable hlength hshows hothers'
  · simp [accept, h.length]
  · intro j hj d hd
    rw [getElem?_accept_of_ne hj] at hd
    obtain ⟨client, hclient, hshows⟩ := h.clients j d hd
    have hj := (List.getElem?_eq_some_iff.mp hclient).1
    exact ⟨client, (List.getElem?_append_left hj).trans hclient, hshows⟩

/-- The reference and the server after a visit. -/
theorem visited (h : Mirrors g o store r s) (hplain : g.Plain) (hlimit : g.limit ≠ some 0)
    (ho : o.ordered = true) {v : Visit} (hv : s.Visited v s') :
    Mirrors g o store (r.visit v) s' := by
  cases hv with
  | connect time hrun hrest => exact (h.connect hplain hlimit ho hrun hrest).wait time
  | send time hi honly hrun hrest =>
      exact (h.send hplain hlimit ho hi honly hrun hrest).wait time

/-- The reference and the server after visits one after another. -/
theorem paced (h : Mirrors g o store r s) (hplain : g.Plain) (hlimit : g.limit ≠ some 0)
    (ho : o.ordered = true) {visits : List Visit} (hvisits : s.Paced visits s') :
    Mirrors g o store (visits.foldl Reference.visit r) s' := by
  induction hvisits generalizing r with
  | nil s => exact h
  | cons hv _ ih => exact ih (h.visited hplain hlimit ho hv)

end Mirrors

end Server

end RespGateway
