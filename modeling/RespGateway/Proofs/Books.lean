import RespGateway.Proofs.Standing

/-!
# The books of a server

Of every run there are two records. A command that is taken on is entered in the
ledger; whatever is put in an outbox is entered in the history, with the number of the
connection. `Books` relates both to the state of the server: the calls that were made
are those of the ledger, tickets are given out once, the tally counts what was taken on and
what was refused, and every connection stands where its own entries say.

The records only grow, and what is entered in the history at a step is what becomes of
the store at that step (`Replays`).
-/

namespace RespGateway

/-- The calls that were made for a command. -/
def Taken.calls (g : Gateway) (t : Taken) : List Call :=
  (g.launch t.ticket t.exchange).call.toList

/-- The commands that were taken on for a connection. -/
def takenOn (i : Nat) (ledger : List Taken) : List Taken := ledger.filter (·.connection == i)

/-- Whether a request is refused. -/
def Delivery.isRefusal : Delivery → Bool
  | .refusal _ => true
  | _ => false

/-- What was put in the outbox of a connection. -/
def putOut (i : Nat) (history : List (Nat × Delivery)) : List Delivery :=
  history.filterMap fun p => if p.1 = i then some p.2 else none

/-- A history leads from one store to another. -/
inductive Replays (g : Gateway) : Store → List (Nat × Delivery) → Store → Prop where
  | nil (s : Store) : Replays g s [] s
  | cons {i : Nat} {d : Delivery} {history : List (Nat × Delivery)} {s s' s'' : Store} :
      d.Comes g s s' → Replays g s' history s'' → Replays g s ((i, d) :: history) s''

theorem Replays.append {g : Gateway} {s s' s'' : Store} {history history' : List (Nat × Delivery)}
    (h : Replays g s history s') (h' : Replays g s' history' s'') :
    Replays g s (history ++ history') s'' := by
  induction h with
  | nil => exact h'
  | cons hd _ ih => exact .cons hd (ih h')

theorem Replays.single {g : Gateway} {s s' : Store} {d : Delivery} (h : d.Comes g s s')
    (i : Nat) : Replays g s [(i, d)] s' := .cons h (.nil s')

theorem Replays.comes {g : Gateway} {s s' : Store} {history : List (Nat × Delivery)}
    (h : Replays g s history s') {i : Nat} {d : Delivery} (hd : (i, d) ∈ history) :
    ∃ s₁ s₂, d.Comes g s₁ s₂ := by
  induction h with
  | nil => cases hd
  | @cons j d' history s₁ s₂ _ hcomes _ ih =>
      rcases List.mem_cons.mp hd with heq | hd
      · cases heq
        exact ⟨s₁, s₂, hcomes⟩
      · exact ih hd

theorem takenOn_append (i : Nat) (ledger new : List Taken) :
    takenOn i (ledger ++ new) = takenOn i ledger ++ takenOn i new := List.filter_append ..

theorem putOut_append (i : Nat) (history new : List (Nat × Delivery)) :
    putOut i (history ++ new) = putOut i history ++ putOut i new := List.filterMap_append

theorem takenOn_own {i : Nat} {new : List Taken} (h : ∀ t ∈ new, t.connection = i) :
    takenOn i new = new := by
  refine List.filter_eq_self.mpr fun t ht => ?_
  rw [h t ht, beq_self_eq_true]

theorem takenOn_other {i j : Nat} (hij : i ≠ j) {new : List Taken}
    (h : ∀ t ∈ new, t.connection = i) : takenOn j new = [] := by
  refine List.filter_eq_nil_iff.mpr fun t ht => ?_
  rw [h t ht, beq_iff_eq]
  exact hij

theorem putOut_own (i : Nat) (put : List Delivery) : putOut i (put.map (Prod.mk i)) = put := by
  rw [putOut, List.filterMap_map]
  simp

theorem putOut_other {i j : Nat} (hij : i ≠ j) (put : List Delivery) :
    putOut j (put.map (Prod.mk i)) = [] := by
  rw [putOut, List.filterMap_map]
  simp [hij]

/-- The error that ends a connection refuses no request. -/
theorem countP_farewell (told : Option Reply) :
    (told.map Delivery.farewell).toList.countP Delivery.isRefusal = 0 := by
  cases told <;> rfl

theorem mem_putOut {i : Nat} {d : Delivery} {history : List (Nat × Delivery)} :
    d ∈ putOut i history ↔ (i, d) ∈ history := by
  simp [putOut]

theorem Connection.session_finish (c : Connection) (why : Departure) :
    (c.finish why).session = c.session := by
  unfold Connection.finish
  dsimp only
  split <;> rfl

/-- The end of a command puts its reply in the outbox. -/
theorem Standing.land_comes {g : Gateway} {o : Connection.Options} {arrived : List Arrival}
    {taken : List Taken} {delivered : List Delivery} {c : Connection} {past : List (List Bytes)}
    {underway : List Taken} (h : Standing g o arrived taken delivered c past underway)
    {ticket : Nat} {flight : Flight} {moment : Moment} {landing : Landing}
    (hfind : c.flights.find? (·.ticket == ticket) = some flight)
    (houtcome : flight.outcome = some (moment, landing)) (work : Gateway.State) :
    ∃ t ∈ underway, t.ticket = ticket ∧ ∃ y,
      work.deliver landing c.writer.outbox = (c.writer.outbox.offer (.reply y),
        { work with store := (landing.land work.store).2 }) ∧
      (Delivery.reply t y).Comes g work.store (landing.land work.store).2 := by
  obtain ⟨t, ht, hticket, now, hflies⟩ := h.flight_underway (List.mem_of_find?_eq_some hfind)
  refine ⟨t, ht, hticket.symm.trans (by simpa using List.find?_some hfind), ?_⟩
  rw [houtcome] at hflies
  obtain ⟨⟨moment', landing'⟩, hlaunch, heq⟩ := Option.map_eq_some_iff.mp hflies.symm
  obtain rfl : landing' = landing := congrArg Prod.snd heq
  -- the exchange was opened by a request, so it has no reply yet
  obtain ⟨arguments, -, hdecode⟩ := h.opened_underway ht
  obtain ⟨y, hy, -, -⟩ :=
    (launch_outcome hlaunch).land (Exchange.decode_ok hdecode).2.1 work.store
  refine ⟨y, ?_, .reply hlaunch (Prod.ext hy rfl)⟩
  simp only [Gateway.State.deliver, Gateway.State.land, hy]

/-! ## The invariant -/

namespace Server

/-- A list in which one entry is put in the place of another. -/
theorem getElem?_set_cases {α : Type} {l : List α} {i j : Nat} {a b : α}
    (h : (l.set i a)[j]? = some b) : j = i ∧ b = a ∨ j ≠ i ∧ l[j]? = some b := by
  by_cases hij : i = j
  · subst hij
    have hi := (List.getElem?_eq_some_iff.mp h).1
    rw [List.length_set] at hi
    rw [List.getElem?_set_self hi] at h
    exact Or.inl ⟨rfl, (Option.some.inj h).symm⟩
  · rw [List.getElem?_set_ne hij] at h
    exact Or.inr ⟨Ne.symm hij, h⟩

/-- A new connection has the last place. -/
theorem getElem?_accept {s : Server} {i : Nat} {c : Connection}
    (hc : s.accept.connections[i]? = some c) :
    s.connections[i]? = some c ∨
      i = s.connections.length ∧ c = { session := UInt64.ofNat (s.connections.length + 1) } := by
  rcases Nat.lt_or_ge i s.connections.length with hi | hi
  · rw [Server.accept, List.getElem?_append_left hi] at hc
    exact Or.inl hc
  · obtain rfl : i = s.connections.length := by
      have := (List.getElem?_eq_some_iff.mp hc).1
      simp only [Server.accept, List.length_append, List.length_singleton] at this
      omega
    simp only [Server.accept, List.getElem?_concat_length] at hc
    exact Or.inr ⟨rfl, (Option.some.inj hc).symm⟩

/-- The others keep theirs. -/
theorem getElem?_accept_of_ne {s : Server} {j : Nat} (hj : j ≠ s.connections.length) :
    s.accept.connections[j]? = s.connections[j]? := by
  rw [Server.accept, List.getElem?_append]
  split
  · rfl
  · rw [List.getElem?_eq_none (by rw [List.length_singleton]; omega),
      List.getElem?_eq_none (by omega)]

/-- The books of a server: what has arrived from every client, the ledger and the history. -/
structure Books (g : Gateway) (o : Connection.Options) (arrived : Nat → List Arrival)
    (ledger : List Taken) (history : List (Nat × Delivery)) (s : Server) : Prop where
  gateway : s.gateway = g
  options : s.options = o
  calls : s.work.calls = ledger.flatMap (Taken.calls g)
  /-- Every ticket is given out once. -/
  tickets : ledger.map Taken.ticket = List.range s.work.tickets
  processed : s.tally.processed = UInt64.ofNat ledger.length
  rejected : s.tally.rejected = UInt64.ofNat (history.countP (·.2.isRefusal))
  /-- Every connection has its own session and stands where its entries say. -/
  connections : ∀ i c, s.connections[i]? = some c → c.session = UInt64.ofNat (i + 1) ∧
    ∃ past underway,
      Standing g o (arrived i) (takenOn i ledger) (putOut i history) c past underway
  /-- Nothing is entered for a client that has not connected. -/
  absent : ∀ i, s.connections.length ≤ i →
    arrived i = [] ∧ takenOn i ledger = [] ∧ putOut i history = []

theorem books_start (g : Gateway) (o : Connection.Options) (store : Store) :
    Books g o (fun _ => []) [] [] (start g o store) where
  gateway := rfl
  options := rfl
  calls := rfl
  tickets := rfl
  processed := rfl
  rejected := rfl
  connections i c hc := by simp [start] at hc
  absent i _ := ⟨rfl, rfl, rfl⟩

namespace Books

variable {g : Gateway} {o : Connection.Options} {arrived : Nat → List Arrival}
  {ledger : List Taken} {history : List (Nat × Delivery)} {s s' : Server}

/-- A client connects. -/
theorem accept (h : Books g o arrived ledger history s) :
    Books g o arrived ledger history s.accept where
  gateway := h.gateway
  options := h.options
  calls := h.calls
  tickets := h.tickets
  processed := h.processed
  rejected := h.rejected
  connections := by
    intro i c hc
    rcases getElem?_accept hc with hc | ⟨rfl, rfl⟩
    · exact h.connections i c hc
    · -- nothing has been entered yet for the new connection
      obtain ⟨harrived, htaken, hput⟩ := h.absent s.connections.length (Nat.le_refl _)
      refine ⟨rfl, [], [], ?_⟩
      rw [harrived, htaken, hput]
      exact standing_init g o _
  absent := by
    intro i hi
    refine h.absent i (Nat.le_trans ?_ hi)
    simp [Server.accept]

/-- Something is entered for one connection, and the others are as they were. -/
theorem turn (h : Books g o arrived ledger history s) {i : Nat} {c : Connection}
    (hc : s.connections[i]? = some c) (c' : Connection) (arrived' : Nat → List Arrival)
    (new : List Taken) (put : List Delivery)
    (hgateway : s'.gateway = s.gateway) (hoptions : s'.options = s.options)
    (hconnections : s'.connections = s.connections.set i c')
    (hcalls : s'.work.calls = s.work.calls ++ new.flatMap (Taken.calls g))
    (htickets : (ledger ++ new).map Taken.ticket = List.range s'.work.tickets)
    (hprocessed : s'.tally.processed = s.tally.processed + UInt64.ofNat new.length)
    (hrejected : s'.tally.rejected =
      s.tally.rejected + UInt64.ofNat (put.countP Delivery.isRefusal))
    (hothers : ∀ j, i ≠ j → arrived' j = arrived j) (hnew : ∀ t ∈ new, t.connection = i)
    (hsession : c'.session = c.session)
    (hstanding : ∃ past underway, Standing g o (arrived' i) (takenOn i ledger ++ new)
      (putOut i history ++ put) c' past underway) :
    Books g o arrived' (ledger ++ new) (history ++ put.map (Prod.mk i)) s' where
  gateway := hgateway.trans h.gateway
  options := hoptions.trans h.options
  calls := by rw [hcalls, h.calls, List.flatMap_append]
  tickets := htickets
  processed := by rw [hprocessed, h.processed, List.length_append, UInt64.ofNat_add]
  rejected := by
    rw [hrejected, h.rejected, List.countP_append, List.countP_map, UInt64.ofNat_add]
    rfl
  connections := by
    intro j d hd
    rw [takenOn_append, putOut_append]
    by_cases hij : i = j
    · subst hij
      have hi := (List.getElem?_eq_some_iff.mp hc).1
      rw [hconnections, List.getElem?_set_self hi] at hd
      cases hd
      rw [takenOn_own hnew, putOut_own, hsession]
      exact ⟨(h.connections i c hc).1, hstanding⟩
    · rw [hconnections, List.getElem?_set_ne hij] at hd
      rw [takenOn_other hij hnew, putOut_other hij, List.append_nil, List.append_nil,
        hothers j hij]
      exact h.connections j d hd
  absent := by
    intro j hj
    rw [hconnections, List.length_set] at hj
    have hi := (List.getElem?_eq_some_iff.mp hc).1
    have hij : i ≠ j := by omega
    rw [takenOn_append, putOut_append, takenOn_other hij hnew, putOut_other hij, List.append_nil,
      List.append_nil, hothers j hij]
    exact h.absent j hj

/-- Something reaches the server from a client. -/
theorem receive (h : Books g o arrived ledger history s) {i : Nat} (hi : i < s.connections.length)
    (a : Arrival) :
    Books g o (fun j => arrived j ++ Server.arrived [.receive i a] j) ledger history
      (s.receive i a) := by
  obtain ⟨c, hc⟩ : ∃ c, s.connections[i]? = some c := ⟨_, List.getElem?_eq_getElem hi⟩
  obtain ⟨-, past, underway, hst⟩ := h.connections i c hc
  have hown : Server.arrived [.receive i a] i = [a] := by simp [Server.arrived]
  have hnone : ∀ j, i ≠ j → arrived j ++ Server.arrived [.receive i a] j = arrived j := by
    intro j hij
    simp [Server.arrived, hij]
  have hbooks : Books g o _ (ledger ++ []) _
      (s.withConnection i { c with inbox := c.inbox ++ [a] }) :=
    h.turn hc { c with inbox := c.inbox ++ [a] }
      (fun j => arrived j ++ Server.arrived [.receive i a] j) [] [] rfl rfl rfl
      (List.append_nil _).symm (by rw [List.append_nil]; exact h.tickets) (UInt64.add_zero _).symm
      (UInt64.add_zero _).symm hnone (by simp) rfl
      ⟨past, underway, by simpa only [hown, List.append_nil] using hst.receive a⟩
  rw [Server.receive, hc]
  simpa only [List.append_nil, List.map_nil] using hbooks

/-- What is put in an outbox when nothing is taken on. -/
theorem enter (h : Books g o arrived ledger history s) {i : Nat} {c c' : Connection}
    (hc : s.connections[i]? = some c) {put : List Delivery} {past : List (List Bytes)}
    {underway : List Taken}
    (hstanding : Standing g o (arrived i) (takenOn i ledger) (putOut i history ++ put) c' past
      underway) (hsession : c'.session = c.session) (hgateway : s'.gateway = s.gateway)
    (hoptions : s'.options = s.options) (hconnections : s'.connections = s.connections.set i c')
    (hcalls : s'.work.calls = s.work.calls) (htickets : s'.work.tickets = s.work.tickets)
    (hprocessed : s'.tally.processed = s.tally.processed)
    (hrejected : s'.tally.rejected =
      s.tally.rejected + UInt64.ofNat (put.countP Delivery.isRefusal)) :
    Books g o arrived ledger (history ++ put.map (Prod.mk i)) s' := by
  have hbooks := h.turn hc c' arrived [] put hgateway hoptions hconnections
    (hcalls.trans (List.append_nil _).symm) (by rw [List.append_nil, htickets]; exact h.tickets)
    (hprocessed.trans (UInt64.add_zero _).symm) hrejected (fun _ _ => rfl) (by simp) hsession
    ⟨past, underway, by rwa [List.append_nil]⟩
  rwa [List.append_nil] at hbooks

/-- A command is entered in the ledger. -/
theorem takeOn (h : Books g o arrived ledger history s) {i : Nat} {c : Connection}
    (hc : s.connections[i]? = some c) (c' : Connection) {x : Exchange}
    (hsession : c'.session = c.session) (past : List (List Bytes)) (underway : List Taken)
    (hstanding : ∀ (t : Taken) (flight : Flight), t.exchange = x → t.Flies g flight →
      Standing g o (arrived i) (takenOn i ledger ++ [t]) (putOut i history)
        { c' with
          flights := c'.flights ++ [flight]
          reader := Standing.readerFor o t } past (underway ++ [t])) :
    Books g o arrived (ledger ++ [⟨i, s.work.tickets, x⟩]) history (s.takeOn i c' x) := by
  have hst := hstanding ⟨i, s.work.tickets, x⟩ (s.work.launch s.gateway s.clock x).1 rfl
    ⟨rfl, s.clock, by rw [h.gateway]; rfl⟩
  have hreader : (if s.options.ordered || x.command == .quit then
      Reader.awaiting (s.work.launch s.gateway s.clock x).1.ticket (x.command == .quit)
      else .reading) = Standing.readerFor o ⟨i, s.work.tickets, x⟩ := by
    rw [h.options]
    rfl
  have hcalls : (s.takeOn i c' x).work.calls =
      s.work.calls ++ [(⟨i, s.work.tickets, x⟩ : Taken)].flatMap (Taken.calls g) := by
    rw [List.flatMap_singleton, Taken.calls, ← h.gateway]
    rfl
  have htickets : (ledger ++ [(⟨i, s.work.tickets, x⟩ : Taken)]).map Taken.ticket =
      List.range (s.takeOn i c' x).work.tickets := by
    rw [List.map_append, h.tickets]
    exact List.range_succ.symm
  have hbooks : Books g o arrived (ledger ++ [⟨i, s.work.tickets, x⟩]) _ (s.takeOn i c' x) :=
    h.turn hc
      { c' with
        flights := c'.flights ++ [(s.work.launch s.gateway s.clock x).1]
        reader := Standing.readerFor o ⟨i, s.work.tickets, x⟩ }
      arrived [⟨i, s.work.tickets, x⟩] [] rfl rfl (by rw [← hreader]; rfl) hcalls htickets
      rfl (UInt64.add_zero _).symm (fun _ _ => rfl) (by simp) hsession
      ⟨past, underway ++ [_], by rw [List.append_nil]; exact hst⟩
  simpa only [List.map_nil, List.append_nil] using hbooks

theorem tickets_nodup (h : Books g o arrived ledger history s) :
    (ledger.map Taken.ticket).Nodup := by
  rw [h.tickets]
  exact List.nodup_range

/-- The tickets of the commands under way are different. -/
theorem underway_nodup (h : Books g o arrived ledger history s) {i : Nat} {c : Connection}
    {past : List (List Bytes)} {underway : List Taken}
    (hst : Standing g o (arrived i) (takenOn i ledger) (putOut i history) c past underway) :
    (underway.map Taken.ticket).Nodup := by
  have htaken : ((takenOn i ledger).map Taken.ticket).Nodup :=
    (List.filter_sublist.map Taken.ticket).nodup h.tickets_nodup
  rw [(hst.ends.perm.map Taken.ticket).nodup_iff, List.map_append] at htaken
  exact (List.nodup_append.mp htaken).2.1

/-- Nothing is taken on or put out. -/
theorem keep (h : Books g o arrived ledger history s) {i : Nat} {c c' : Connection}
    (hc : s.connections[i]? = some c) {past : List (List Bytes)} {underway : List Taken}
    (hst : Standing g o (arrived i) (takenOn i ledger) (putOut i history) c' past underway)
    (hsession : c'.session = c.session) (hgateway : s'.gateway = s.gateway)
    (hoptions : s'.options = s.options) (hconnections : s'.connections = s.connections.set i c')
    (hwork : s'.work = s.work) (hprocessed : s'.tally.processed = s.tally.processed)
    (hrejected : s'.tally.rejected = s.tally.rejected) :
    ∃ (new : List Taken) (put : List Delivery),
      Books g o arrived (ledger ++ new) (history ++ put.map (Prod.mk i)) s' ∧
      Replays g s.work.store (put.map (Prod.mk i)) s'.work.store := by
  have hnothing : Standing g o (arrived i) (takenOn i ledger) (putOut i history ++ []) c' past
      underway := by
    rw [List.append_nil]
    exact hst
  refine ⟨[], [], ?_, ?_⟩
  · rw [List.append_nil]
    exact h.enter hc hnothing hsession hgateway hoptions hconnections (by rw [hwork])
      (by rw [hwork]) hprocessed (hrejected.trans (UInt64.add_zero _).symm)
  · rw [hwork]
    exact .nil _

/-- **What a move does is added to the books.** -/
theorem effect (h : Books g o arrived ledger history s) {m : Move} {i : Nat} {c : Connection}
    (hc : s.connections[i]? = some c) (heffect : Effect s i c m s') :
    ∃ (new : List Taken) (put : List Delivery),
      Books g o arrived (ledger ++ new) (history ++ put.map (Prod.mk i)) s' ∧
      Replays g s.work.store (put.map (Prod.mk i)) s'.work.store := by
  obtain ⟨-, past, underway, hst⟩ := h.connections i c hc
  cases heffect with
  | @refuse arguments consumed why hreader hd hx =>
      refine ⟨[], [.refusal why], ?_, .single (.refusal why _) i⟩
      rw [List.append_nil]
      exact h.enter hc (hst.refuse hreader hd hx) rfl rfl rfl rfl rfl rfl rfl rfl
  | drain hreader hd hx hquit =>
      exact h.keep hc (hst.drain hreader hd hx hquit) rfl rfl rfl rfl rfl rfl rfl
  | @takeOn arguments consumed x hreader hd hx hquit =>
      refine ⟨[⟨i, s.work.tickets, x⟩], [], ?_, .nil _⟩
      rw [List.map_nil, List.append_nil]
      refine h.takeOn hc { c with buffer := c.buffer.drop consumed } rfl (past ++ [arguments])
        underway ?_
      rintro t flight rfl hflies
      exact hst.takeOn hreader hd hx hquit hflies
  | @takeOnLast x hreader hflights =>
      refine ⟨[⟨i, s.work.tickets, x⟩], [], ?_, .nil _⟩
      rw [List.map_nil, List.append_nil]
      refine h.takeOn hc c rfl past [] ?_
      rintro t flight rfl hflies
      exact hst.takeOnLast hreader hflights hflies
  | read hreader hd hroom hinbox =>
      rw [h.options] at hroom
      exact h.keep hc (hst.read hreader hd hroom hinbox) rfl rfl rfl rfl rfl rfl rfl
  | @finish inbox why hreader hends =>
      rw [h.options] at hends
      refine ⟨[], (why.told.map Delivery.farewell).toList, ?_, ?_⟩
      · rw [List.append_nil]
        refine h.enter hc (hst.finish hreader hends) (Connection.session_finish _ _) rfl rfl rfl
          rfl rfl rfl ?_
        rw [countP_farewell]
        exact (UInt64.add_zero _).symm
      · cases why.told with
        | none => exact .nil _
        | some r => exact .single (.farewell r _) i
  | @land ticket flight moment landing hfind houtcome =>
      obtain ⟨t, ht, rfl, y, hdeliver, hcomes⟩ := hst.land_comes hfind houtcome s.work
      rw [hdeliver]
      refine ⟨[], [.reply t y], ?_, .single hcomes i⟩
      rw [List.append_nil]
      exact h.enter hc (hst.land (h.underway_nodup hst) ht y) rfl rfl rfl rfl rfl rfl rfl
        (UInt64.add_zero _).symm
  | write hwriter => exact h.keep hc (hst.write hwriter) rfl rfl rfl rfl rfl rfl rfl
  | release hfinished hflights hsenders =>
      exact h.keep hc (hst.release hfinished hflights) rfl rfl rfl rfl rfl rfl rfl
  | depart hreader hstopped hdeparted => exact h.keep hc hst.depart rfl rfl rfl rfl rfl rfl rfl

theorem move (h : Books g o arrived ledger history s) {m : Move}
    (hstep : s.perform? m = some s') :
    ∃ (new : List Taken) (put : List Delivery),
      Books g o arrived (ledger ++ new) (history ++ put.map (Prod.mk m.connection)) s' ∧
      Replays g s.work.store (put.map (Prod.mk m.connection)) s'.work.store := by
  obtain ⟨c, hc, heffect⟩ := perform?_effect hstep
  exact h.effect hc heffect

/-- Whatever happens adds to the books what it does. -/
theorem happen (h : Books g o arrived ledger history s) {e : Happening}
    (hstep : s.happen? e = some s') :
    ∃ new put, Books g o (fun i => arrived i ++ Server.arrived [e] i) (ledger ++ new)
      (history ++ put) s' ∧ Replays g s.work.store put s'.work.store := by
  cases e with
  | accept =>
      cases hstep
      refine ⟨[], [], ?_, .nil _⟩
      simpa [Server.arrived] using h.accept
  | receive i a =>
      simp only [happen?] at hstep
      split at hstep
      · rename_i hi
        cases hstep
        refine ⟨[], [], ?_, ?_⟩
        · simpa only [List.append_nil] using h.receive hi a
        · rw [Server.receive, List.getElem?_eq_getElem hi]
          exact .nil _
      · cases hstep
  | move m =>
      obtain ⟨new, put, hbooks, hreplays⟩ := h.move hstep
      refine ⟨new, put.map (Prod.mk m.connection), ?_, hreplays⟩
      simpa [Server.arrived] using hbooks

/-- **The books of a run.** -/
theorem follow (h : Books g o arrived ledger history s) {run : List Happening}
    (hrun : s.follow? run = some s') :
    ∃ new put, Books g o (fun i => arrived i ++ Server.arrived run i) (ledger ++ new)
      (history ++ put) s' ∧ Replays g s.work.store put s'.work.store := by
  refine follow?_induction (P := fun run s' => ∃ new put,
    Books g o (fun i => arrived i ++ Server.arrived run i) (ledger ++ new) (history ++ put) s' ∧
      Replays g s.work.store put s'.work.store) ?_ ?_ hrun
  · refine ⟨[], [], ?_, .nil _⟩
    simpa [Server.arrived] using h
  · rintro run s₁ e s₂ - ⟨new, put, hbooks, hreplays⟩ hstep
    obtain ⟨new', put', hbooks', hreplays'⟩ := hbooks.happen hstep
    refine ⟨new ++ new', put ++ put', ?_, hreplays.append hreplays'⟩
    rw [← List.append_assoc, ← List.append_assoc]
    simpa only [arrived_concat, ← List.append_assoc] using hbooks'

end Books

/-- Every run of a server from its start has books. -/
theorem books_run {g : Gateway} {o : Connection.Options} {store : Store} {run : List Happening}
    {s : Server} (hrun : (start g o store).follow? run = some s) :
    ∃ ledger history, Books g o (arrived run) ledger history s ∧
      Replays g store history s.work.store := by
  obtain ⟨ledger, history, hbooks, hreplays⟩ := (books_start g o store).follow hrun
  exact ⟨ledger, history, by simpa only [List.nil_append] using hbooks, hreplays⟩

end Server

end RespGateway
