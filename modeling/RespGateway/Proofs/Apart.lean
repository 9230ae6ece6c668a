import RespGateway.Proofs.Agreement
import RespGateway.Proofs.Balance
import RespGateway.Proofs.Played
import RespGateway.Proofs.Position

/-!
# Clients that keep apart

A client whose commands are about keys that no other client uses cannot tell that there are
others. Whatever they send and however everything is interleaved, it receives what it would
receive alone on a fresh server, and its connection ends where and as it would end there.

The argument is the usual one for two runs. `Served` keeps of a run what is put out for the
client, and lets the store change in between where the client does not look: what others do
is such a change (`Replays.served`), and what the client does comes out the same in two
such runs (`Served.contents`).
-/

namespace RespGateway

open StateTransition

/-! ## Requests of two clients -/

/-- Clients that send the same request open exchanges that differ only in who sent them. -/
theorem decode_client (client client' : UInt64) (arguments : List Bytes) :
    Exchange.decode client' arguments =
      (Exchange.decode client arguments).map fun x => { x with client := client' } := by
  unfold Exchange.decode
  split
  · rfl
  · split
    · rfl
    · split <;> rfl

/-- What is put out for one request in two runs, if it is about these keys. -/
inductive Delivery.Twin (keys : List Bytes) : Delivery → Delivery → Prop where
  | refusal (why : Exchange.Refusal) : Twin keys (.refusal why) (.refusal why)
  | reply {t t' : Taken} {y y' : Exchange} : t.exchange.Alike t'.exchange →
      (∀ key ∈ t.exchange.keys, key ∈ keys) → t.exchange.command ≠ .dbSize →
      Twin keys (.reply t y) (.reply t' y')
  | farewell (r : Reply) : Twin keys (.farewell r) (.farewell r)

theorem refusal_of_request {d : Delivery} {why : Exchange.Refusal}
    (h : d.request? = some (.error why)) : d = .refusal why := by
  cases d <;> cases h
  rfl

theorem reply_of_request {d : Delivery} {x : Exchange} (h : d.request? = some (.ok x)) :
    ∃ t y, d = .reply t y ∧ t.exchange = x := by
  cases d <;> cases h
  exact ⟨_, _, rfl, rfl⟩

/-- Of what is put out for the same request to two clients, both are the same refusal or both are
replies to the command. -/
theorem pair_of_request {client client' : UInt64} {arguments : List Bytes} {d d' : Delivery}
    (hd : d.request? = some (Exchange.decode client arguments))
    (hd' : d'.request? = some (Exchange.decode client' arguments)) :
    (∃ why, d = .refusal why ∧ d' = .refusal why) ∨
      ∃ t y t' y', d = .reply t y ∧ d' = .reply t' y' ∧
        Exchange.decode client arguments = .ok t.exchange ∧
        t'.exchange = { t.exchange with client := client' } := by
  rw [decode_client client client'] at hd'
  cases hx : Exchange.decode client arguments with
  | error why =>
      rw [hx] at hd hd'
      exact Or.inl ⟨why, refusal_of_request hd, refusal_of_request hd'⟩
  | ok x =>
      rw [hx] at hd hd'
      obtain ⟨t, y, rfl, rfl⟩ := reply_of_request hd
      obtain ⟨t', y', rfl, hexchange⟩ := reply_of_request hd'
      exact Or.inr ⟨t, y, t', y', rfl, rfl, rfl, hexchange⟩

/-- Deliveries for the same request are twins. -/
theorem twin_of_request {keys : List Bytes} {client client' : UInt64}
    {requests : List (List Bytes)} {arguments : List Bytes} {d d' : Delivery}
    (harguments : arguments ∈ requests)
    (hd : d.request? = some (Exchange.decode client arguments))
    (hd' : d'.request? = some (Exchange.decode client' arguments))
    (hkeys : ∀ x ∈ commandsOf client requests,
      (∀ key ∈ x.keys, key ∈ keys) ∧ x.command ≠ .dbSize) : d.Twin keys d' := by
  rcases pair_of_request hd hd' with ⟨why, rfl, rfl⟩ | ⟨t, y, t', y', rfl, rfl, hx, hexchange⟩
  · exact .refusal why
  · have hmem : t.exchange ∈ commandsOf client requests :=
      List.mem_filterMap.mpr ⟨arguments, harguments, by rw [hx]; rfl⟩
    obtain ⟨hsome, hsize⟩ := hkeys _ hmem
    have hopen := (Exchange.decode_ok hx).2.1
    refine .reply ?_ hsome hsize
    rw [hexchange]
    exact ⟨rfl, rfl, hopen, hopen⟩

/-- Deliveries that answer the same requests are twins, one by one. -/
theorem twins_of_answers {keys : List Bytes} {client client' : UInt64}
    {requests : List (List Bytes)} {answers answers' : List Delivery}
    (h : Answers client requests answers) (h' : Answers client' requests answers')
    (hkeys : ∀ x ∈ commandsOf client requests,
      (∀ key ∈ x.keys, key ∈ keys) ∧ x.command ≠ .dbSize) :
    List.Forall₂ (Delivery.Twin keys) answers answers' := by
  exact h.forall₂ h' fun arguments harguments d d' hd hd' =>
    twin_of_request harguments hd hd' hkeys

/-! ## What is put out for one client -/

/-- What is put out for one client, one after another; in between the store may change, but not at
these keys. -/
inductive Served (g : Gateway) (keys : List Bytes) : Store → List Delivery → Prop where
  | nil (s : Store) : Served g keys s []
  | cons {d : Delivery} {put : List Delivery} {s s' s'' : Store} : d.Comes g s s' →
      s'.AgreesOn keys s'' → Served g keys s'' put → Served g keys s (d :: put)

section

variable {g : Gateway} {keys : List Bytes} {s s' t : Store} {put put' : List Delivery}

theorem Served.left (h : Served g keys s (put ++ put')) : Served g keys s put := by
  induction put generalizing s with
  | nil => exact .nil s
  | cons d put ih =>
      cases h with
      | cons hcomes hagree hrest => exact .cons hcomes hagree (ih hrest)

/-- **What others do is not seen**: a history in which they leave these keys alone serves the
client. -/
theorem Replays.served {i : Nat} {history : List (Nat × Delivery)} (h : Replays g s history s')
    (hothers : ∀ p ∈ history, p.1 ≠ i → ∀ s s', p.2.Comes g s s' → s.AgreesOn keys s') :
    ∃ s₁, s.AgreesOn keys s₁ ∧ Served g keys s₁ (putOut i history) := by
  induction h with
  | nil s => exact ⟨s, .refl keys s, .nil s⟩
  | @cons j d history s s' s'' hcomes _ ih =>
      obtain ⟨s₁, hagree, hserved⟩ := ih fun p hp => hothers p (List.mem_cons_of_mem _ hp)
      rw [putOut, List.filterMap_cons]
      by_cases hj : j = i
      · -- the client is served here, and what others do afterwards comes behind it
        rw [if_pos hj]
        exact ⟨s, .refl keys s, .cons hcomes hagree hserved⟩
      · rw [if_neg hj]
        have hsame := hothers (j, d) (List.mem_cons_self ..) hj s s' hcomes
        exact ⟨s₁, hsame.trans hagree, hserved⟩

/-- Twins have the same content where they find the same. -/
theorem Delivery.Twin.content {d d' : Delivery} {s' t' : Store} (h : d.Twin keys d')
    (hplain : g.Plain) (hagree : s.AgreesOn keys t) (hd : d.Comes g s s')
    (hd' : d'.Comes g t t') : d.item.content = d'.item.content ∧ s'.AgreesOn keys t' := by
  cases h with
  | refusal why =>
      cases hd
      cases hd'
      exact ⟨rfl, hagree⟩
  | reply halike hkeys hsize =>
      cases hd with
      | reply hlaunch hland =>
          cases hd' with
          | reply hlaunch' hland' =>
              obtain ⟨hresponse, hafter⟩ := (hplain.alike halike hlaunch hlaunch').land halike
                hagree hkeys hsize hland hland'
              refine ⟨?_, hafter⟩
              simp only [Delivery.item, Outgoing.content, hresponse]
  | farewell r =>
      cases hd
      cases hd'
      exact ⟨rfl, hagree⟩

/-- **Two clients that send the same are served the same**, from stores that agree on their keys. -/
theorem Served.contents (hplain : g.Plain) (htwins : List.Forall₂ (Delivery.Twin keys) put put')
    (h : Served g keys s put) (h' : Served g keys t put') (hagree : s.AgreesOn keys t) :
    put.map (·.item.content) = put'.map (·.item.content) := by
  induction htwins generalizing s t with
  | nil => rfl
  | cons htwin _ ih =>
      cases h with
      | cons hcomes hbetween hrest =>
          cases h' with
          | cons hcomes' hbetween' hrest' =>
              obtain ⟨hcontent, hafter⟩ := htwin.content hplain hagree hcomes hcomes'
              -- what the others did in between is not seen at these keys
              have hlater := ih hrest hrest' ((hbetween.symm.trans hafter).trans hbetween')
              rw [List.map_cons, List.map_cons, hcontent, hlater]

end

/-! ## What two clients are told -/

theorem twins_farewells (keys : List Bytes) (farewells : List Reply) :
    List.Forall₂ (Delivery.Twin keys) (farewells.map Delivery.farewell)
      (farewells.map Delivery.farewell) := by
  induction farewells with
  | nil => exact .nil
  | cons r farewells ih => exact .cons (.farewell r) ih

section

variable {g : Gateway} {keys : List Bytes} {said : Transcript} {taken taken' : List Taken}
  {put put' : List Delivery} {c c' : Connection}

/-- What has been put out for a client has a twin in what is put out for another one that has said
the same, once that is complete. -/
theorem InOrder.twins (h : InOrder g said taken put c) (h' : Completed said taken' put' c')
    (hkeys : ∀ x ∈ commandsOf c.session said.requests,
      (∀ key ∈ x.keys, key ∈ keys) ∧ x.command ≠ .dbSize) :
    ∃ front rest, put' = front ++ rest ∧ List.Forall₂ (Delivery.Twin keys) put front := by
  obtain ⟨answers, farewells, rfl, hanswers, hall⟩ := h.answers
  obtain ⟨answers', rfl, hanswers'⟩ := h'.answers
  rcases hall with rfl | ⟨hlength, rfl⟩
  · -- the client has not been told yet why the connection ends
    refine ⟨answers'.take answers.length,
      answers'.drop answers.length ++ said.farewell.map Delivery.farewell, ?_, ?_⟩
    · rw [← List.append_assoc, List.take_append_drop]
    · rw [List.map_nil, List.append_nil]
      refine twins_of_answers hanswers (List.forall₂_take _ hanswers') fun x hx => hkeys x ?_
      exact (List.take_sublist _ _).filterMap _ |>.subset hx
  · refine ⟨_, [], (List.append_nil _).symm, ?_⟩
    rw [hlength, List.take_length] at hanswers
    exact List.rel_append (twins_of_answers hanswers hanswers' hkeys) (twins_farewells keys _)

/-- Two clients that have said the same have been told the same number of things. -/
theorem Completed.twins (h : Completed said taken put c) (h' : Completed said taken' put' c')
    (hkeys : ∀ x ∈ commandsOf c.session said.requests,
      (∀ key ∈ x.keys, key ∈ keys) ∧ x.command ≠ .dbSize) :
    List.Forall₂ (Delivery.Twin keys) put put' := by
  exact h.forall₂ h'
    (fun arguments harguments d d' hd hd' => twin_of_request harguments hd hd' hkeys) .farewell

theorem wire_contents (items : List Outgoing) :
    wire items = (items.map Outgoing.content).flatMap Reply.encode := by
  rw [wire, List.flatMap_map]

/-- What a client has received are some of the replies that were put out, whole and in their
order. -/
theorem InOrder.sent_prefix (h : InOrder g said taken put c) :
    c.writer.sent <+: (put.map (·.item.content)).flatMap Reply.encode := by
  obtain ⟨flushed, hflushed, hsent⟩ := h.sent
  rw [hsent, wire_contents]
  refine List.IsPrefix.flatMap ?_ _
  have := hflushed.map Outgoing.content
  rwa [List.map_map] at this

end

/-- Whether a connection is broken off shows in what has not been read and in how it ended. -/
theorem Connection.isBroken_eq (c : Connection) :
    c.isBroken = (c.inbox.contains .reset || c.departure? == some (.troubled .reset)) := by
  rw [Connection.isBroken]
  congr 1
  rw [Bool.eq_iff_iff, beq_iff_eq, beq_iff_eq, Server.departure?_eq]

namespace Server

/-! ## Two runs -/

/-- The commands that a client has asked for in a run. -/
def asked (o : Connection.Options) (run : List Happening) (i : Nat) : List Exchange :=
  commandsOf (.ofNat (i + 1)) (said o run i).requests

/-- A client keeps apart from the others: no command of theirs is about a key that a command of it
is about, and it does not ask for the number of keys. -/
structure KeepsApart (o : Connection.Options) (run : List Happening) (i : Nat) : Prop where
  keys : ∀ x ∈ asked o run i, ∀ key ∈ x.keys, ∀ j, j ≠ i → ∀ y ∈ asked o run j, key ∉ y.keys
  size : ∀ x ∈ asked o run i, x.command ≠ .dbSize

/-- A client sends `script` alone on a fresh server, and then nothing is left to do. -/
structure Solo (g : Gateway) (o : Connection.Options) (script : List Arrival)
    (run : List Happening) (s : Server) (c : Connection) : Prop where
  follows : ∃ place, (start g o (.empty place)).follow? run = some s
  alone : s.connections = [c]
  script : arrived run 0 = script
  rest : s.AtRest

/-- Alone the reader of a client stands at the end of its path. -/
theorem Solo.position {g : Gateway} {o : Connection.Options} {script : List Arrival}
    {run : List Happening} {s : Server} {c : Connection} (h : Solo g o script run s c)
    (hends : g.AlwaysEnds) :
    c.position ∈ eval (Position.next? o.maxBuffer) (.before script) := by
  obtain ⟨place, hrun⟩ := h.follows
  obtain ⟨ledger, history, hbooks, -⟩ := books_run hrun
  have hc : s.connections[0]? = some c := by rw [h.alone]; rfl
  rw [← h.script]
  exact mem_eval.mpr ⟨position_run hrun 0 c hc,
    (hbooks.settledAt hends (h.rest.still 0) hc).1.next?⟩

/-- Every script can be sent alone. -/
theorem exists_solo (g : Gateway) (o : Connection.Options) (script : List Arrival) :
    ∃ run s c, Solo g o script run s c := by
  have hone : 0 < (start g o .fresh).accept.connections.length := Nat.one_pos
  obtain ⟨moves, s, hmoves, hrest⟩ :=
    exists_rest (script.foldl (fun s a => s.receive 0 a) (start g o .fresh).accept)
  have hrun : (start g o .fresh).follow?
      (.accept :: (script.map (.receive 0) ++ moves.map .move)) = some s := by
    change (start g o .fresh).accept.follow? (script.map (.receive 0) ++ moves.map .move) = some s
    rw [follow?_append, follow?_receives hone, Option.bind_some]
    exact hmoves
  have hlength : s.connections.length = 1 := by
    rw [(accounts_run hrun).connections, List.countP_cons, List.countP_append, List.countP_map,
      List.countP_map]
    simp [Happening.isAccept, Function.comp_def]
  obtain ⟨c, hc⟩ := List.length_eq_one_iff.mp hlength
  exact ⟨_, s, c, ⟨_, hrun⟩, hc, arrived_receives 0 script moves, hrest⟩

section

variable {g : Gateway} {o : Connection.Options} {run : List Happening} {s : Server}
  {ledger : List Taken} {history : List (Nat × Delivery)} {store : Store} {i : Nat}

/-- A command that is replied to has been asked for. -/
theorem Books.asked (h : Books g o (arrived run) ledger history s) {t : Taken} {y : Exchange}
    (hmem : (i, Delivery.reply t y) ∈ history) : t.exchange ∈ Server.asked o run i := by
  have hi := h.entered hmem
  obtain ⟨hsession, past, underway, hst⟩ := h.connections i _ (List.getElem?_eq_getElem hi)
  obtain ⟨arguments, harguments, hdecode⟩ := hst.request_heard (mem_putOut.mpr hmem) rfl
  rw [hsession] at hdecode
  refine List.mem_filterMap.mpr ⟨arguments, ?_, by rw [hdecode]; rfl⟩
  rw [said, hst.requests_now]
  exact List.mem_append_left _ harguments

/-- What is put out for one client where nobody else does anything about some keys. -/
theorem Books.served (h : Books g o (arrived run) ledger history s)
    (hreplays : Replays g store history s.work.store) (keys : List Bytes)
    (hothers : ∀ j, j < s.connections.length → j ≠ i → ∀ y ∈ Server.asked o run j,
      ∀ key ∈ y.keys, key ∉ keys) :
    ∃ s₁, store.AgreesOn keys s₁ ∧ Served g keys s₁ (putOut i history) := by
  refine hreplays.served fun p hp hother s₁ s₂ hcomes => ?_
  obtain ⟨j, d⟩ := p
  cases hcomes with
  | refusal why => exact .refl keys _
  | farewell r => exact .refl keys _
  | reply hlaunch hland =>
      have hagree := (launch_outcome hlaunch).agreesOn
        (hothers j (h.entered hp) hother _ (h.asked hp)) s₁
      rwa [hland] at hagree

end

/-- The keys that the commands of a client are about. -/
def keysOf (o : Connection.Options) (run : List Happening) (i : Nat) : List Bytes :=
  (asked o run i).flatMap Exchange.keys

section

variable {g : Gateway} {o : Connection.Options} {run alone : List Happening} {s s₁ : Server}
  {ledger ledger₁ : List Taken} {history history₁ : List (Nat × Delivery)}
  {place place₁ : Bytes → Fin Store.shardCount} {i : Nat} {c₁ : Connection}

/-- **What is put out for a client that keeps apart has the contents that it has alone.** -/
theorem Books.contents_apart (h : Books g o (arrived run) ledger history s)
    (hreplays : Replays g (.empty place) history s.work.store)
    (h₁ : Books g o (arrived alone) ledger₁ history₁ s₁)
    (hreplays₁ : Replays g (.empty place₁) history₁ s₁.work.store) (hplain : g.Plain)
    (hapart : KeepsApart o run i) (halone : s₁.connections = [c₁]) {front rest : List Delivery}
    (hfront : putOut 0 history₁ = front ++ rest)
    (htwins : List.Forall₂ (Delivery.Twin (keysOf o run i)) (putOut i history) front) :
    (putOut i history).map (·.item.content) = front.map (·.item.content) := by
  obtain ⟨t, hagree, hserved⟩ := h.served hreplays (keysOf o run i) (i := i) (by
    intro j _ hj y hy key hkey hmem
    obtain ⟨x, hx, hx'⟩ := List.mem_flatMap.mp hmem
    exact hapart.keys x hx key hx' j hj y hy hkey)
  obtain ⟨t₁, hagree₁, hserved₁⟩ := h₁.served hreplays₁ (keysOf o run i) (i := 0) (by
    intro j hj hother
    rw [halone, List.length_singleton] at hj
    omega)
  rw [hfront] at hserved₁
  exact hserved.contents hplain htwins hserved₁.left
    ((hagree.symm.trans (.empty _ place place₁)).trans hagree₁)

end

/-- The same event of another session. -/
def Event.under (session : UInt64) : Event → Event
  | .connected _ => .connected session
  | .disconnected _ trouble => .disconnected session trouble

/-- A connection is as another one, but for its session. -/
structure SameAs (c c₁ : Connection) : Prop where
  /-- The clients have received the same. -/
  sent : c.writer.sent = c₁.writer.sent
  /-- They have been heard up to the same place. -/
  position : c.position = c₁.position
  /-- Both are closed, or neither is. -/
  stopped : c.writer.isStopped = c₁.writer.isStopped
  closed : c.isClosed = c₁.isClosed
  /-- Both have ended in the same way, or neither has. -/
  departed : c.departed = c₁.departed
  departure : c.departure? = c₁.departure?

/-- The client of connection `i` of `s` is served as it is alone, where its connection is `c₁`. -/
structure AsAlone (o : Connection.Options) (s : Server) (i : Nat) (c : Connection) (s₁ : Server)
    (c₁ : Connection) : Prop where
  /-- At no time has the client received anything else. -/
  sent : c.writer.sent <+: c₁.writer.sent
  /-- At no time has it been heard beyond the place up to which it is heard alone. -/
  position : Reaches (Position.next? o.maxBuffer) c.position c₁.position
  /-- When nothing is left to do for the client, whatever is done for others, all is the same. -/
  same : s.StillAt i → SameAs c c₁
  /-- And then an observer has heard the same of it, under its own session. -/
  heard : s.StillAt i → s.connections.length < 2 ^ 64 →
    s.heardOf (.ofNat (i + 1)) = (s₁.heardOf 1).map (Event.under (.ofNat (i + 1)))

/-- **Clients on different keys cannot tell that there are others**, whatever they send, under every
time limit and in every order of moves: a client that keeps apart receives what it receives
alone on a fresh server, and its connection ends where and as it ends there. -/
theorem run_apart {g : Gateway} (hplain : g.Plain) {o : Connection.Options}
    (ho : o.ordered = true) {place : Bytes → Fin Store.shardCount} {run : List Happening}
    {s : Server} (hrun : (start g o (.empty place)).follow? run = some s) {i : Nat}
    {c : Connection} (hc : s.connections[i]? = some c) (hapart : KeepsApart o run i) :
    (∃ alone s₁ c₁, Solo g o (arrived run i) alone s₁ c₁) ∧
      ∀ alone s₁ c₁, Solo g o (arrived run i) alone s₁ c₁ → AsAlone o s i c s₁ c₁ := by
  refine ⟨exists_solo g o (arrived run i), fun alone s₁ c₁ hsolo => ?_⟩
  obtain ⟨place₁, halone⟩ := hsolo.follows
  have hc₁ : s₁.connections[0]? = some c₁ := by rw [hsolo.alone]; rfl
  obtain ⟨ledger, history, hbooks, hreplays⟩ := books_run hrun
  obtain ⟨ledger₁, history₁, hbooks₁, hreplays₁⟩ := books_run halone
  obtain ⟨hsession, past, underway, hst⟩ := hbooks.connections i c hc
  have hinOrder := hst.inOrder ho
  have hcompleted₁ := hbooks₁.completedAt hreplays₁ ho hplain.keepsCommands hplain.alwaysEnds
    (hsolo.rest.still 0) hc₁
  have hknown₁ := hbooks₁.known hplain.alwaysEnds (hsolo.rest.still 0) hc₁
    ((accounts_run halone).sound c₁ (List.mem_of_getElem? hc₁))
  have hsaid : said o alone 0 = said o run i := by rw [said, said, hsolo.script]
  rw [hsaid] at hknown₁
  rw [hsolo.script] at hcompleted₁
  have hpath := position_run hrun i c hc
  have hend₁ := hsolo.position hplain.alwaysEnds
  -- whatever the client asks for is about its own keys
  have hkeys : ∀ x ∈ commandsOf c.session (said o run i).requests,
      (∀ key ∈ x.keys, key ∈ keysOf o run i) ∧ x.command ≠ .dbSize := by
    rw [hsession]
    exact fun x hx => ⟨fun key hkey => List.mem_flatMap.mpr ⟨x, hx, hkey⟩, hapart.size x hx⟩
  refine ⟨?_, (mem_eval.mp (reaches_eval hpath ▸ hend₁)).1, fun hstill => ?_,
    fun hstill hlength => ?_⟩
  · obtain ⟨front, rest, hfront, htwins⟩ := hinOrder.twins hcompleted₁ hkeys
    have hcontents := hbooks.contents_apart hreplays hbooks₁ hreplays₁ hplain hapart hsolo.alone
      hfront htwins
    refine hinOrder.sent_prefix.trans ?_
    rw [hcompleted₁.sent, wire_deliveries, hfront, hcontents, List.map_append, List.flatMap_append]
    exact List.prefix_append _ _
  · have hcompleted := hbooks.completedAt hreplays ho hplain.keepsCommands hplain.alwaysEnds
      hstill hc
    have hcontents := hbooks.contents_apart hreplays hbooks₁ hreplays₁ hplain hapart hsolo.alone
      (List.append_nil _).symm (hcompleted.twins hcompleted₁ hkeys)
    have hknown := hbooks.known hplain.alwaysEnds hstill hc
      ((accounts_run hrun).sound c (List.mem_of_getElem? hc))
    have hstopped : c.writer.isStopped = c₁.writer.isStopped :=
      hcompleted.closed.trans hcompleted₁.closed.symm
    have hposition : c.position = c₁.position := Part.mem_unique
      (mem_eval.mpr ⟨hpath, (hbooks.settledAt hplain.alwaysEnds hstill hc).1.next?⟩) hend₁
    have hdeparture : c.departure? = c₁.departure? :=
      hknown.departure.trans hknown₁.departure.symm
    have hbroken : c.isBroken = c₁.isBroken := by
      rw [Connection.isBroken_eq, Connection.isBroken_eq, hdeparture,
        show c.inbox = c₁.inbox from congrArg Position.inbox hposition]
    exact
      { sent := by
          rw [hcompleted.sent, hcompleted₁.sent, wire_deliveries, wire_deliveries, hcontents]
        position := hposition
        stopped := hstopped
        closed := by rw [Connection.isClosed, Connection.isClosed, hstopped, hbroken]
        departed := hknown.departed.trans hknown₁.departed.symm
        departure := hdeparture }
  · have hone : s₁.connections.length < 2 ^ 64 := by
      rw [hsolo.alone, List.length_singleton]
      decide
    have hheard := hbooks.heard (accounts_run hrun) hplain.alwaysEnds hstill hc hlength
    have hheard₁ := hbooks₁.heard (accounts_run halone) hplain.alwaysEnds (hsolo.rest.still 0)
      hc₁ hone
    rw [hsaid] at hheard₁
    change s₁.heardOf 1 = _ at hheard₁
    rw [hheard, hheard₁]
    cases (said o run i).ending <;> rfl

/-- Two clients on different keys, one move of the one between two of the other. -/
def interleaved : List Happening :=
  [.accept, .accept,
    .receive 0 (.bytes [83, 69, 84, 32, 97, 32, 49, 13, 10, 71, 69, 84, 32, 97, 13, 10]),
    .receive 1 (.bytes [83, 69, 84, 32, 98, 32, 50, 13, 10, 81, 85, 73, 84, 13, 10]),
    .move (.reader 1), .move (.reader 0), .move (.reader 0), .move (.reader 1),
    .move (.land 1 1), .move (.land 0 0), .move (.reader 0), .move (.reader 1),
    .move (.land 0 2), .move (.reader 1), .move (.writer 0), .move (.land 1 3),
    .move (.writer 0), .move (.writer 1), .move (.writer 0), .move (.writer 1),
    .move (.writer 0), .move (.writer 1)]

theorem keepsApart_interleaved : KeepsApart {} interleaved 0 := by
  have hasked : asked {} interleaved 0 =
      [⟨.set, 1, [[97], [49]], none⟩, ⟨.get, 1, [[97]], none⟩] := by decide +kernel
  have hasked' : asked {} interleaved 1 =
      [⟨.set, 2, [[98], [50]], none⟩, ⟨.quit, 2, [], none⟩] := by decide +kernel
  have hown : ∀ x ∈ asked {} interleaved 0, x.keys = [[97]] ∧ x.command ≠ .dbSize := by
    rw [hasked]
    decide
  have hother : ∀ y ∈ asked {} interleaved 1, [97] ∉ y.keys := by
    rw [hasked']
    decide
  refine ⟨fun x hx key hkey j hj y hy => ?_, fun x hx => (hown x hx).2⟩
  rw [(hown x hx).1, List.mem_singleton] at hkey
  subst hkey
  match j with
  | 0 => exact absurd rfl hj
  | 1 => exact hother y hy
  | j + 2 => exact absurd hy List.not_mem_nil

/-- A client binds a key and looks it up, while another one binds another key and leaves. -/
theorem run_apart_interleaved :
    ∃ s c, (start { routes := .own } {} (.empty Store.spread)).follow? interleaved = some s ∧
      s.connections[0]? = some c ∧
      c.writer.sent = [43, 79, 75, 13, 10, 36, 49, 13, 10, 49, 13, 10] ∧
      KeepsApart {} interleaved 0 ∧
      ∀ alone s₁ c₁, Solo { routes := .own } {} (arrived interleaved 0) alone s₁ c₁ →
        AsAlone {} s 0 c s₁ c₁ := by
  have heval : ((start { routes := .own } {} (.empty Store.spread)).follow? interleaved).map
      (fun s => s.connections[0]?.map (·.writer.sent)) =
        some (some [43, 79, 75, 13, 10, 36, 49, 13, 10, 49, 13, 10]) := by
    decide +kernel
  obtain ⟨s, hrun, hs⟩ := Option.map_eq_some_iff.mp heval
  obtain ⟨c, hc, hsent⟩ := Option.map_eq_some_iff.mp hs
  exact ⟨s, c, hrun, hc, hsent, keepsApart_interleaved,
    (run_apart ⟨rfl, rfl⟩ rfl hrun hc keepsApart_interleaved).2⟩

end Server

end RespGateway
