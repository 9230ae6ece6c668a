import RespGateway.Proofs.Elapse
import RespGateway.Proofs.Refinement
import RespGateway.Server.Play

/-!
# A play like the reference's

The clients of a play visit the server one at a time, so a play of clients that do not
break their connections off shows what the reference server shows when they play with
it: after every action the same is received, and the same connections are closed.
-/

namespace RespGateway

/-- What is seen of an action from outside. -/
structure Server.Seen where
  client : Nat
  /-- What the client received. -/
  out : Bytes
  /-- Whether the server has closed the client's connection. -/
  closed : Bool
  deriving DecidableEq, Repr

def Server.Report.seen (r : Report) : Seen := ⟨r.client, r.out, r.closed⟩

/-- Whether a client breaks its connection off. -/
def Server.Action.breaksOff : Action → Bool
  | .reset _ => true
  | _ => false

/-! ## The reference at play -/

namespace Reference

def received (r : Reference) (i : Nat) : Bytes := (r.clients[i]?.map (·.received)).getD []

def isClosed (r : Reference) (i : Nat) : Bool := r.clients[i]?.any (!·.isOpen)

/-- What is seen of a reference that was `before` and is `now`. -/
def seen (i : Nat) (before now : Reference) : Server.Seen where
  client := i
  out := (now.received i).drop (before.received i).length
  closed := now.isClosed i

/-- Lets arrivals of a client reach the reference, unless the client is not heard. -/
def act (i : Nat) (groups : List (List Arrival)) (r : Reference) :
    Except Server.Halt (Option Server.Seen × Reference) :=
  if r.clients.length ≤ i then .error (.noClient i)
  else if r.isClosed i then .ok (none, r)
  else
    let now := groups.foldl (fun r group => r.hear i group) r
    .ok (some (seen i r now), now)

/-- One action. -/
def playAction (r : Reference) :
    Server.Action → Except Server.Halt (Option Server.Seen × Reference)
  | .connect => .ok (some (seen r.clients.length r r.connect), r.connect)
  | .send i data last => r.act i (Server.arrivals data last)
  | .endInput i => r.act i [[.endOfInput]]
  | .reset i => r.act i [[.reset]]

/-- A list of actions, one after another. -/
def play : Reference → List Server.Action → Except Server.Halt (List (Option Server.Seen))
  | _, [] => .ok []
  | r, action :: actions =>
    match r.playAction action with
    | .error halt => .error halt
    | .ok (seen, r) => (play r actions).map (seen :: ·)

/-- Nothing is heard of a client that is not open. -/
theorem hearAll_closed {r : Reference} {i : Nat} {client : Client}
    (h : r.clients[i]? = some client) (hclosed : client.isOpen = false)
    (groups : List (List Arrival)) : groups.foldl (fun r group => r.hear i group) r = r := by
  induction groups with
  | nil => rfl
  | cons group groups ih => rwa [List.foldl_cons, hear_closed h hclosed]

end Reference

/-! ## Connections that are not broken off -/

/-- The client has not broken the connection off. -/
def Connection.Whole (c : Connection) : Prop :=
  Arrival.reset ∉ c.inbox ∧ c.reader ≠ .finished (.troubled .reset)

theorem Connection.Whole.isBroken {c : Connection} (h : c.Whole) : c.isBroken = false := by
  unfold Connection.isBroken
  rw [Bool.or_eq_false_iff]
  exact ⟨by simpa using h.1, beq_eq_false_iff_ne.mpr h.2⟩

theorem Connection.Whole.finish {o : Options} {c : Connection} (h : c.Whole)
    {inbox : List Arrival} {why : Departure} (hends : c.Ends o inbox why) :
    ({ c with inbox }.finish why).Whole := by
  have hinbox : ({ c with inbox }.finish why).inbox = inbox := by
    unfold Connection.finish
    dsimp only
    split <;> rfl
  refine ⟨?_, ?_⟩
  · rw [hinbox]
    cases hends with
    | malformed hd => exact h.1
    | oversized hd hroom => exact h.1
    | left hd hroom hc => exact fun hmem => h.1 (hc ▸ List.mem_cons_of_mem _ hmem)
    | reset hd hroom hc => exact fun hmem => h.1 (hc ▸ List.mem_cons_of_mem _ hmem)
  · intro hfinished
    have hwhy : why = .troubled .reset := Reader.finished.inj hfinished
    cases hends with
    | malformed hd => cases hwhy
    | oversized hd hroom => cases hwhy
    | left hd hroom hc => split at hwhy <;> cases hwhy
    | reset hd hroom hc => exact h.1 (hc ▸ List.mem_cons_self ..)

theorem Reader.afterLanding_ne_reset {r : Reader} (h : r ≠ .finished (.troubled .reset))
    (ticket : Nat) : r.afterLanding ticket ≠ .finished (.troubled .reset) := by
  cases r with
  | awaiting awaited last =>
      rw [Reader.afterLanding]
      split
      · cases last <;> simp
      · simp
  | _ => exact h

namespace Server

variable {s s' : Server}

/-- No client has broken its connection off. -/
def Whole (s : Server) : Prop := ∀ c ∈ s.connections, c.Whole

theorem Whole.move (h : s.Whole) {m : Move} (hstep : s.perform? m = some s') : s'.Whole := by
  obtain ⟨c, hc, heffect⟩ := perform?_effect hstep
  generalize m.connection = i at hc heffect
  have hwhole := h c (List.mem_of_getElem? hc)
  cases heffect with
  | refuse hreader hd hx => exact forall_set h rfl hwhole
  | drain hreader hd hx hquit => exact forall_set h rfl ⟨hwhole.1, nofun⟩
  | takeOn hreader hd hx hquit =>
      refine forall_set h rfl ⟨hwhole.1, ?_⟩
      dsimp only
      split <;> exact nofun
  | takeOnLast hreader hflights =>
      refine forall_set h rfl ⟨hwhole.1, ?_⟩
      dsimp only
      split <;> exact nofun
  | read hreader hd hroom hinbox =>
      refine forall_set h rfl ⟨fun hmem => hwhole.1 ?_, hwhole.2⟩
      rw [hinbox]
      exact List.mem_cons_of_mem _ hmem
  | finish hreader hends => exact forall_set h rfl (hwhole.finish hends)
  | land hfind houtcome =>
      exact forall_set h rfl ⟨hwhole.1, Reader.afterLanding_ne_reset hwhole.2 _⟩
  | write hwriter => exact forall_set h rfl hwhole
  | release hfinished hflights hsenders => exact forall_set h rfl hwhole
  | depart hreader hstopped hdeparted => exact forall_set h rfl hwhole

theorem Whole.accept (h : s.Whole) : s.accept.Whole := by
  intro c hc
  rcases List.mem_append.mp hc with hc | hc
  · exact h c hc
  · rw [List.mem_singleton.mp hc]
    exact ⟨List.not_mem_nil, nofun⟩

theorem Whole.receive (h : s.Whole) {i : Nat} {a : Arrival} (ha : a ≠ .reset) :
    (s.receive i a).Whole := by
  rw [Server.receive]
  cases hc : s.connections[i]? with
  | none => exact h
  | some c =>
      obtain ⟨hinbox, hreader⟩ := h c (List.mem_of_getElem? hc)
      refine forall_set h rfl ⟨?_, hreader⟩
      simp [hinbox, Ne.symm ha]

theorem Whole.moves (h : s.Whole) {moves : List Move}
    (hrun : s.follow? (moves.map .move) = some s') : s'.Whole := by
  induction moves generalizing s with
  | nil =>
      obtain rfl : s = s' := Option.some.inj hrun
      exact h
  | cons m moves ih =>
      obtain ⟨s₁, hstep, hrest⟩ := Option.bind_eq_some_iff.mp hrun
      exact ih (h.move hstep) hrest

/-! ## Arrivals, group by group -/

theorem follow?_receives {i : Nat} (hi : i < s.connections.length) (group : List Arrival) :
    s.follow? (group.map (.receive i)) = some (group.foldl (fun s a => s.receive i a) s) := by
  induction group generalizing s with
  | nil => rfl
  | cons a group ih =>
      have hlength : (s.receive i a).connections.length = s.connections.length := by
        rw [receive, List.getElem?_eq_getElem hi]
        exact List.length_set
      rw [List.map_cons, follow?, List.foldlM_cons, happen?, if_pos hi]
      exact ih (hlength ▸ hi)

theorem arrived_receives (i : Nat) (group : List Arrival) (moves : List Move) :
    arrived (group.map (.receive i) ++ moves.map .move) i = group := by
  rw [arrived, List.filterMap_append, List.filterMap_map, List.filterMap_map]
  simp

/-- Arrivals of one client, and moves after them. -/
theorem onlyFrom_receives (i : Nat) (group : List Arrival) (moves : List Move) :
    OnlyFrom i (group.map (.receive i) ++ moves.map .move) := by
  intro e he
  rcases List.mem_append.mp he with he | he
  · obtain ⟨a, -, rfl⟩ := List.mem_map.mp he
    exact .inr ⟨a, rfl⟩
  · obtain ⟨m, -, rfl⟩ := List.mem_map.mp he
    exact .inl ⟨m, rfl⟩

theorem whole_receives {i : Nat} {group : List Arrival} (h : s.Whole)
    (hgroup : Arrival.reset ∉ group) : (group.foldl (fun s a => s.receive i a) s).Whole := by
  induction group generalizing s with
  | nil => exact h
  | cons a group ih =>
      rw [List.mem_cons, not_or] at hgroup
      exact ih (h.receive (Ne.symm hgroup.1)) hgroup.2

/-- Data is cut into arrivals that break nothing off. -/
theorem reset_not_mem_arrivals (data : Bytes) (last : Bool) :
    ∀ group ∈ arrivals data last, Arrival.reset ∉ group := by
  unfold arrivals
  intro group hgroup
  cases hpieces : (pieces data).reverse with
  | nil =>
      simp only [hpieces, List.mem_singleton] at hgroup
      subst hgroup
      cases last <;> simp
  | cons piece earlier =>
      simp only [hpieces, List.mem_append, List.mem_map, List.mem_singleton] at hgroup
      rcases hgroup with ⟨p, -, rfl⟩ | rfl
      · simp
      · cases last <;> simp

namespace Mirrors

variable {g : Gateway} {o : Connection.Options} {store : Store} {r : Reference} {i : Nat}

theorem received (h : Mirrors g o store r s) (i : Nat) : s.received i = r.received i := by
  unfold Server.received Reference.received
  rcases Nat.lt_or_ge i s.connections.length with hi | hi
  · have hc := List.getElem?_eq_getElem hi
    obtain ⟨client, hclient, hshows⟩ := h.clients i _ hc
    rw [hc, hclient, Option.map_some, Option.map_some, hshows.received]
  · rw [List.getElem?_eq_none hi, List.getElem?_eq_none (h.length ▸ hi)]
    rfl

theorem isClosed (h : Mirrors g o store r s) (hwhole : s.Whole) (i : Nat) :
    s.isClosed i = r.isClosed i := by
  unfold Server.isClosed Reference.isClosed
  rcases Nat.lt_or_ge i s.connections.length with hi | hi
  · have hc := List.getElem?_eq_getElem hi
    obtain ⟨client, hclient, hshows⟩ := h.clients i _ hc
    have hbroken := (hwhole _ (List.mem_of_getElem? hc)).isBroken
    rw [hc, hclient, Option.any_some, Option.any_some, Connection.isClosed, hshows.stopped,
      hbroken, Bool.not_false, Bool.and_true]
  · rw [List.getElem?_eq_none hi, List.getElem?_eq_none (h.length ▸ hi)]
    rfl

theorem isGone (h : Mirrors g o store r s) (hwhole : s.Whole) (hi : i < s.connections.length) :
    s.isGone i = r.isClosed i := by
  have hc := List.getElem?_eq_getElem hi
  have hbroken := (hwhole _ (List.mem_of_getElem? hc)).isBroken
  rw [← h.isClosed hwhole, Server.isGone, Server.isClosed, hc, Option.all_some, Option.any_some,
    hbroken, Bool.or_false]

/-- At rest no command is under way, so all can end now. -/
theorem allRipe (h : Mirrors g o store r s) (hplain : g.Plain) : s.AllRipe := by
  obtain ⟨arrivals, ledger, history, hbooks, -⟩ := h.records
  intro c hc f hf
  obtain ⟨i, hi⟩ := List.mem_iff_getElem?.mp hc
  obtain ⟨-, past, underway, hst⟩ := hbooks.connections i c hi
  rw [(h.rest.still i).flights hplain.alwaysEnds hi hst.flights] at hf
  cases hf

theorem endsAtOnce (h : Mirrors g o store r s) (hplain : g.Plain) (hlimit : g.limit ≠ some 0) :
    s.gateway.EndsAtOnce := by
  obtain ⟨arrivals, ledger, history, hbooks, -⟩ := h.records
  rw [hbooks.gateway]
  exact hplain.endsAtOnce hlimit

/-- Arrivals of a client, and time after them. -/
theorem hear (h : Mirrors g o store r s) (hplain : g.Plain) (hlimit : g.limit ≠ some 0)
    (ho : o.ordered = true) (hwhole : s.Whole) (hi : i < s.connections.length)
    {group : List Arrival} (hgroup : Arrival.reset ∉ group) (period : Nat) :
    Mirrors g o store (r.hear i group)
        ((group.foldl (fun s a => s.receive i a) s).elapse period) ∧
      ((group.foldl (fun s a => s.receive i a) s).elapse period).Whole := by
  have hreceives := follow?_receives hi group
  obtain ⟨moves, s', hmoves, hrest, helapse⟩ :=
    elapse_rests (h.endsAtOnce hplain hlimit) (h.allRipe hplain) hreceives period
  have honly : OnlyFrom i (group.map (.receive i) ++ moves.map .move) :=
    onlyFrom_receives i group moves
  have hrun : s.follow? (group.map (.receive i) ++ moves.map .move) = some s' := by
    rw [follow?_append, hreceives]
    exact hmoves
  have hvisited := h.visited hplain hlimit ho
    (.send (s.clock + period) hi honly hrun hrest)
  rw [arrived_receives] at hvisited
  have hwhole' : s'.Whole := (whole_receives hwhole hgroup).moves hmoves
  rw [helapse]
  exact ⟨hvisited, hwhole'⟩

/-- Arrivals of a client, group by group. -/
theorem receiveAll (h : Mirrors g o store r s) (hplain : g.Plain) (hlimit : g.limit ≠ some 0)
    (ho : o.ordered = true) (hwhole : s.Whole) (hi : i < s.connections.length)
    {groups : List (List Arrival)} (hgroups : ∀ group ∈ groups, Arrival.reset ∉ group) :
    Mirrors g o store (groups.foldl (fun r group => r.hear i group) r)
        (Server.receiveAll i groups s) ∧
      (Server.receiveAll i groups s).Whole := by
  induction groups generalizing r s with
  | nil => exact ⟨h, hwhole⟩
  | cons group groups ih =>
      obtain ⟨hmirrors, hwhole'⟩ :=
        h.hear hplain hlimit ho hwhole hi (hgroups group (List.mem_cons_self ..)) day
      have hlength : ((group.foldl (fun s a => s.receive i a) s).elapse day).connections.length =
          s.connections.length := by
        rw [← hmirrors.length, Reference.length_hear, h.length]
      have hgone := hmirrors.isGone hwhole' (hlength ▸ hi)
      rw [Server.receiveAll, List.foldl_cons]
      split
      · -- what comes after the end is not heard by the reference either
        rename_i hend
        rw [hgone] at hend
        obtain ⟨client, hclient, hclosed⟩ := (Option.any_eq_true ..).mp hend
        rw [Reference.hearAll_closed hclient (by simpa using hclosed)]
        exact ⟨hmirrors, hwhole'⟩
      · exact ih hmirrors hwhole' (hlength ▸ hi) fun later hlater =>
          hgroups later (List.mem_cons_of_mem _ hlater)

end Mirrors

/-! ## Plays -/

/-- The outcomes of an action on a server and on the reference agree. -/
inductive Agree (g : Gateway) (o : Connection.Options) (store : Store) :
    Except Halt (Option Report × Server) → Except Halt (Option Seen × Reference) → Prop where
  | halt (why : Halt) : Agree g o store (.error why) (.error why)
  | go {r : Reference} {s : Server} (report : Option Report) : Mirrors g o store r s → s.Whole →
      Agree g o store (.ok (report, s)) (.ok (report.map Report.seen, r))

namespace Mirrors

variable {g : Gateway} {o : Connection.Options} {store : Store} {r r' : Reference} {i : Nat}

theorem seen (h : Mirrors g o store r s) (h' : Mirrors g o store r' s') (hwhole : s'.Whole)
    (i : Nat) : (report i s s').seen = Reference.seen i r r' := by
  rw [Report.seen, report, Reference.seen, h.received, h'.received, h'.isClosed hwhole]

theorem act (h : Mirrors g o store r s) (hplain : g.Plain) (hlimit : g.limit ≠ some 0)
    (ho : o.ordered = true) (hwhole : s.Whole) (i : Nat) {groups : List (List Arrival)}
    (hgroups : ∀ group ∈ groups, Arrival.reset ∉ group) :
    Agree g o store (s.act i groups) (r.act i groups) := by
  unfold Server.act Reference.act
  rw [h.length]
  by_cases hi : s.connections.length ≤ i
  · rw [if_pos hi, if_pos hi]
    exact .halt _
  · rw [if_neg hi, if_neg hi, h.isGone hwhole (Nat.lt_of_not_le hi)]
    split
    · exact .go none h hwhole
    · obtain ⟨hmirrors, hwhole'⟩ :=
        h.receiveAll hplain hlimit ho hwhole (Nat.lt_of_not_le hi) hgroups
      dsimp only
      rw [← h.seen hmirrors hwhole']
      exact .go _ hmirrors hwhole'

theorem playAction (h : Mirrors g o store r s) (hplain : g.Plain) (hlimit : g.limit ≠ some 0)
    (ho : o.ordered = true) (hwhole : s.Whole) {action : Action}
    (haction : action.breaksOff = false) :
    Agree g o store (s.playAction true action) (r.playAction action) := by
  cases action with
  | connect =>
      have haccept : s.follow? [.accept] = some s.accept := rfl
      obtain ⟨moves, s', hmoves, hrest, helapse⟩ :=
        elapse_rests (h.endsAtOnce hplain hlimit) (h.allRipe hplain) haccept day
      have hmirrors : Mirrors g o store r.connect (s.accept.elapse day) := by
        rw [helapse]
        exact h.visited hplain hlimit ho (.connect (s.clock + day) hmoves hrest)
      have hmoved : s'.Whole := hwhole.accept.moves hmoves
      have hwhole' : (s.accept.elapse day).Whole := by
        rw [helapse]
        exact hmoved
      rw [Server.playAction, if_pos rfl, Reference.playAction, h.length]
      dsimp only
      rw [← h.seen hmirrors hwhole']
      exact .go _ hmirrors hwhole'
  | send i data last =>
      exact h.act hplain hlimit ho hwhole i (reset_not_mem_arrivals data last)
  | endInput i => exact h.act hplain hlimit ho hwhole i (by simp)
  | reset i => cases haction

theorem play (h : Mirrors g o store r s) (hplain : g.Plain) (hlimit : g.limit ≠ some 0)
    (ho : o.ordered = true) (hwhole : s.Whole) {actions : List Action}
    (hactions : ∀ action ∈ actions, action.breaksOff = false) :
    (s.play true actions).map (List.map (Option.map Report.seen)) = r.play actions := by
  induction actions generalizing r s with
  | nil => rfl
  | cons action actions ih =>
      have hagree := h.playAction hplain hlimit ho hwhole (hactions action (List.mem_cons_self ..))
      rw [Server.play, Reference.play]
      generalize s.playAction true action = outcome at hagree ⊢
      generalize r.playAction action = outcome' at hagree ⊢
      cases hagree with
      | halt why => rfl
      | go report hmirrors hwhole' =>
          dsimp only
          rw [← ih hmirrors hwhole' fun a ha => hactions a (List.mem_cons_of_mem _ ha)]
          cases Server.play true _ actions <;> rfl

end Mirrors

/-- **A plain gateway in ordered mode refines the reference server**, unless there is no time for
any call. This holds however what clients send is cut and whichever moves the server makes, and so
it does for plays. -/
theorem refines_reference {g : Gateway} (hplain : g.Plain) (hlimit : g.limit ≠ some 0)
    {o : Connection.Options} (ho : o.ordered = true) (place : Bytes → Fin Store.shardCount) :
    (∀ (visits : List Visit) (s : Server), (start g o (.empty place)).Paced visits s →
      s.connections.map (fun c => (c.writer.sent, c.writer.isStopped)) =
        (visits.foldl Reference.visit { maxBuffer := o.maxBuffer }).clients.map
          fun client => (client.received, !client.isOpen)) ∧
    ∀ actions : List Action, (∀ action ∈ actions, action.breaksOff = false) →
      ((start g o (.empty place)).play true actions).map (List.map (Option.map Report.seen)) =
        ({ maxBuffer := o.maxBuffer } : Reference).play actions := by
  have hstart := mirrors_start g o place
  refine ⟨?_, ?_⟩
  · intro visits s hvisits
    have hmirrors := hstart.paced hplain hlimit ho hvisits
    refine List.ext_getElem? fun i => ?_
    rw [List.getElem?_map, List.getElem?_map]
    rcases Nat.lt_or_ge i s.connections.length with hi | hi
    · have hc := List.getElem?_eq_getElem hi
      obtain ⟨client, hclient, hshows⟩ := hmirrors.clients i _ hc
      rw [hc, hclient, Option.map_some, Option.map_some, hshows.received, hshows.stopped]
    · rw [List.getElem?_eq_none hi, List.getElem?_eq_none (hmirrors.length ▸ hi)]
      rfl
  · intro actions hactions
    exact hstart.play hplain hlimit ho (fun c hc => by cases hc) hactions

/-- Two clients set a key one after the other. The first looks up another, the second unbinds both,
sends something unknown and quits. -/
theorem refines_reference_two_clients :
    ((start { routes := .own } {} .fresh).play true
        [.connect, .connect, .send 0 (Text.Utf8.ofString "SET k a\r\nGET j\r\n") false,
          .send 1 (Text.Utf8.ofString "GETSET k b\r\nDEL k j\r\nNOPE\r\nQUIT\r\n") true]).map
      (List.map (Option.map Report.seen)) =
        .ok [some ⟨0, [], false⟩, some ⟨1, [], false⟩,
          some ⟨0, Text.Utf8.ofString "+OK\r\n$-1\r\n", false⟩,
          some ⟨1, Text.Utf8.ofString
            ("$1\r\na\r\n:1\r\n" ++ "-ERR unknown command 'NOPE'\r\n+OK\r\n"), true⟩] ∧
    ∃ s, (start { routes := .own } {} .fresh).Paced [.connect] s ∧
      s.connections.map (fun c => (c.writer.sent, c.writer.isStopped)) = [([], false)] := by
  have hrefines := @refines_reference { routes := .own } ⟨rfl, rfl⟩ (by decide) {} rfl Store.spread
  refine ⟨(hrefines.2 _ (by decide)).trans (by decide +kernel), ?_⟩
  obtain ⟨moves, s, hmoves, hrest⟩ := exists_rest (start { routes := .own } {} .fresh).accept
  have hpaced : (start { routes := .own } {} .fresh).Paced [.connect] { s with clock := 0 } :=
    .cons (.connect 0 hmoves hrest) (.nil _)
  exact ⟨_, hpaced, (hrefines.1 _ _ hpaced).trans (by decide +kernel)⟩

end Server

end RespGateway
