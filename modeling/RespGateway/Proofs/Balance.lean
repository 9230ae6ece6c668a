import Mathlib.Algebra.BigOperators.Intervals
import RespGateway.Proofs.Accounts
import RespGateway.Proofs.InOrder

/-!
# Counters at rest

Of a server at rest every counter is known from what the clients have sent. Every complete
request was either a command, which was taken on, or was refused, and nothing else is
counted: what is malformed or too large is no request. All that was written has been
sent. A connection is active as long as its client is heard, and when it is not, an
observer has heard why.
-/

namespace RespGateway

open Finset (range)

/-! ## Requests that are commands -/

/-- Whether the arguments of a request are a command: a name that is known, with as many arguments
as it takes. -/
def isCommand : List Bytes → Bool
  | [] => false
  | name :: args => (Command.ofName? name).any (·.arity.accepts args.length)

theorem toOption_decode (client : UInt64) (arguments : List Bytes) :
    (Exchange.decode client arguments).toOption.isSome = isCommand arguments := by
  cases arguments with
  | nil => rfl
  | cons name args =>
      rw [Exchange.decode, isCommand]
      cases Command.ofName? name with
      | none => rfl
      | some command =>
          simp only [Option.any_some]
          by_cases harity : command.arity.accepts args.length = true
          · rw [if_pos harity, harity]
            rfl
          · rw [if_neg harity, Bool.eq_false_iff.mpr harity]
            rfl

/-- As many commands are asked for as there are requests that are commands. -/
theorem length_commandsOf (client : UInt64) (requests : List (List Bytes)) :
    (commandsOf client requests).length = requests.countP isCommand := by
  rw [commandsOf, List.length_filterMap_eq_countP]
  exact congrArg (List.countP · requests) (funext (toOption_decode client))

/-- Every request that is answered by a refusal is no command. -/
theorem countP_refusal {client : UInt64} {requests : List (List Bytes)} {put : List Delivery}
    (h : (requests.map (Exchange.decode client)).Perm (put.filterMap Delivery.request?)) :
    put.countP Delivery.isRefusal = requests.countP (!isCommand ·) := by
  have hcount := h.countP_eq (fun r => !r.toOption.isSome)
  rw [List.countP_map, List.countP_filterMap] at hcount
  have hrefusal : (fun d : Delivery => (d.request?.map (!·.toOption.isSome)).getD false) =
      Delivery.isRefusal := by
    funext d
    cases d <;> rfl
  have hrequest : (fun r : Except Exchange.Refusal Exchange => !r.toOption.isSome) ∘
      Exchange.decode client = (!isCommand ·) := by
    funext arguments
    exact congrArg (!·) (toOption_decode client arguments)
  rw [hrefusal, hrequest] at hcount
  exact hcount.symm

/-! ## A connection with nothing left to do -/

section

variable {g : Gateway} {o : Connection.Options} {arrived : List Arrival} {taken : List Taken}
  {put : List Delivery} {c : Connection} {past : List (List Bytes)}

namespace Standing

/-- All requests that were heard have been taken off the stream, and the connection has ended
exactly if nothing more is heard. -/
theorem heard_all (h : Standing g o arrived taken put c past []) (hexhausted : c.Exhausted o) :
    (Transcript.ofArrivals o.maxBuffer [] arrived).requests = past ∧
      (Transcript.ofArrivals o.maxBuffer [] arrived).ending = c.departure? := by
  rw [h.heard_exhausted hexhausted, Connection.departure?]
  cases hexhausted with
  | listening hreader _ _ _ =>
      rw [hreader]
      exact ⟨rfl, rfl⟩
  | ended hreader =>
      rw [hreader]
      exact ⟨List.append_nil _, rfl⟩

/-- The requests that are commands have been taken on, and the others refused. -/
theorem counts (h : Standing g o arrived taken put c past []) (hexhausted : c.Exhausted o) :
    taken.length = (Transcript.ofArrivals o.maxBuffer [] arrived).requests.countP isCommand ∧
      put.countP Delivery.isRefusal =
        (Transcript.ofArrivals o.maxBuffer [] arrived).requests.countP (!isCommand ·) := by
  have hheld : c.reader.held = [] := by
    cases hexhausted with
    | listening hreader _ _ _ => rw [hreader]; rfl
    | ended hreader => rw [hreader]; rfl
  have htaken := h.commands_past.perm.length_eq
  rw [hheld, List.filterMap_nil, List.append_nil, List.length_map, length_commandsOf] at htaken
  rw [(h.heard_all hexhausted).1]
  exact ⟨htaken.symm, countP_refusal (h.answered hexhausted).perm⟩

end Standing

/-- A writer with nothing to do has sent what it has written, if its client can be written to. -/
theorem Writer.Carries.written_of_idle {w : Writer} {items : List Outgoing}
    (h : w.Carries items) (hidle : w.phase = .stopped ∨ w.phase = .waiting ∧ w.outbox.waiting = [])
    (hwritten : w.written = w.output) : w.written = w.sent.length := by
  rw [hwritten, Writer.output, h.buffered_of_idle hidle]
  rfl

/-- What is known of a connection with nothing left to do, where its client has said `said`. -/
structure Known (said : Transcript) (taken : List Taken) (put : List Delivery) (c : Connection) :
    Prop where
  taken : taken.length = said.requests.countP isCommand
  refused : put.countP Delivery.isRefusal = said.requests.countP (!isCommand ·)
  /-- Its end has been made known exactly if nothing more is heard of its client. -/
  departed : c.departed = said.ending.isSome
  departure : c.departure? = said.ending
  /-- It is heard of it that it was made and, if its reader has ended, with which trouble. -/
  lifecycle : c.lifecycle = .connected c.session ::
    (said.ending.map fun why =>
      .disconnected c.session (why.withLoss c.writer.isLost).trouble?).toList

end

namespace Server

/-- The end of a connection of which no move is possible has been made known exactly if its reader
has ended. -/
theorem StillAt.departed {s : Server} {i : Nat} (h : s.StillAt i) {c : Connection}
    (hc : s.connections[i]? = some c) {o : Connection.Options} (hexhausted : c.Exhausted o)
    (hflights : c.flights = []) (hsound : c.Sound) : c.departed = c.departure?.isSome := by
  cases hexhausted with
  | listening hreader _ _ _ =>
      rw [departure?_reading hreader, Option.isSome_none, Bool.eq_false_iff]
      intro hgone
      have hwhy := (hsound.departed hgone).1
      rw [departure?_reading hreader] at hwhy
      cases hwhy
  | ended hreader =>
      obtain ⟨-, hgone⟩ := h.ended hc hreader hflights
      rw [hgone, departure?_eq.mpr hreader, Option.isSome_some]

/-- **By what its client has said, this much is known of a connection with nothing left to do**,
whatever has become of its writer. -/
theorem StillAt.known {g : Gateway} {o : Connection.Options} {s : Server} {i : Nat}
    (h : s.StillAt i) (hends : g.AlwaysEnds) (ho : s.options = o) {c : Connection}
    (hc : s.connections[i]? = some c) (hsound : c.Sound) {writer : Writer} {departed : Bool}
    {arrivals : List Arrival} {taken underway : List Taken} {put : List Delivery}
    {past : List (List Bytes)}
    (hst : Standing g o arrivals taken put { c with writer, departed } past underway) :
    Known (.ofArrivals o.maxBuffer [] arrivals) taken put c := by
  obtain ⟨hexhausted, hflights, rfl⟩ := h.exhausted hends ho hc hst
  obtain ⟨htaken, hrefused⟩ := hst.counts hexhausted.same
  have hending : (Transcript.ofArrivals o.maxBuffer [] arrivals).ending = c.departure? :=
    (hst.heard_all hexhausted.same).2
  have hgone := h.departed hc hexhausted hflights hsound
  exact
    { taken := htaken
      refused := hrefused
      departed := by rw [hgone, hending]
      departure := hending.symm
      lifecycle := by
        rw [Connection.lifecycle, Connection.ending?, hgone, hending]
        cases c.departure? <;> rfl }

end Server

/-! ## Sums over the connections -/

/-- Entries are counted by the number that they stand under. -/
theorem sum_countP_at {α : Type} (key : α → Nat) (p : α → Bool) {n : Nat} {l : List α}
    (h : ∀ a ∈ l, key a < n) :
    ∑ i ∈ range n, l.countP (fun a => key a == i && p a) = l.countP p := by
  induction l with
  | nil => simp
  | cons a l ih =>
      have hl := ih fun b hb => h b (List.mem_cons_of_mem _ hb)
      have ha := h a (List.mem_cons_self ..)
      simp only [List.countP_cons, Finset.sum_add_distrib, hl]
      congr 1
      cases p a <;> simp [ha]

theorem total_eq_sum {α : Type} (f : α → Nat) {l : List α} (value : Nat → Nat)
    (h : ∀ i a, l[i]? = some a → f a = value i) :
    Server.total f l = ∑ i ∈ range l.length, value i := by
  induction l generalizing value with
  | nil => rfl
  | cons a l ih =>
      rw [Server.total, List.length_cons, Finset.sum_range_succ', Nat.add_comm,
        ih (fun i => value (i + 1)) fun i b hb => h (i + 1) b hb, h 0 a rfl]

theorem total_congr {α : Type} {f f' : α → Nat} {l : List α} (h : ∀ a ∈ l, f a = f' a) :
    Server.total f l = Server.total f' l := by
  induction l with
  | nil => rfl
  | cons a l ih =>
      rw [Server.total, Server.total, h a (List.mem_cons_self ..),
        ih fun b hb => h b (List.mem_cons_of_mem _ hb)]

theorem total_toNat {α : Type} (p : α → Bool) (l : List α) :
    Server.total (fun a => (p a).toNat) l = l.countP p := by
  induction l with
  | nil => rfl
  | cons a l ih =>
      rw [Server.total, ih, List.countP_cons]
      cases p a <;> simp [Nat.add_comm]

namespace Server

/-! ## A server at rest -/

/-- What the client of a connection has said in a run. -/
def said (o : Connection.Options) (run : List Happening) (i : Nat) : Transcript :=
  .ofArrivals o.maxBuffer [] (arrived run i)

/-- The counters of a server at rest and what was heard of it, by what its clients have said. -/
structure Balance (o : Connection.Options) (run : List Happening) (s : Server) : Prop where
  /-- The requests that are commands were taken on. -/
  processed : s.tally.processed =
    .ofNat (∑ i ∈ range s.connections.length, (said o run i).requests.countP isCommand)
  /-- The others were refused. -/
  rejected : s.tally.rejected =
    .ofNat (∑ i ∈ range s.connections.length, (said o run i).requests.countP (!isCommand ·))
  /-- So every complete request was counted once, and nothing else was. -/
  requests : s.tally.processed + s.tally.rejected =
    .ofNat (∑ i ∈ range s.connections.length, (said o run i).requests.length)
  calls : s.work.calls.length ≤
    ∑ i ∈ range s.connections.length, (said o run i).requests.countP isCommand
  /-- The clients that are heard are active. -/
  active : s.tally.active =
    .ofNat ((range s.connections.length).filter fun i => (said o run i).ending = none).card
  /-- To a client that can be written to, all that was written has been sent. -/
  written : ∀ c ∈ s.connections, c.writer.isLost = false →
    c.writer.written = c.writer.sent.length
  /-- Of every connection it was heard that it was made and, if nothing more is heard of its client,
  then that it has ended and with which trouble; and nothing else. -/
  lifecycle : s.connections.length < 2 ^ 64 → ∀ i c, s.connections[i]? = some c →
    s.heardOf (.ofNat (i + 1)) = .connected (.ofNat (i + 1)) ::
      ((said o run i).ending.map fun why =>
        .disconnected (.ofNat (i + 1)) (why.withLoss c.writer.isLost).trouble?).toList

section

variable {g : Gateway} {o : Connection.Options} {arrived : Nat → List Arrival}
  {ledger : List Taken} {history : List (Nat × Delivery)} {s : Server}

theorem length_takenOn (i : Nat) (ledger : List Taken) :
    (takenOn i ledger).length = ledger.countP fun t => t.connection == i && true := by
  rw [takenOn, ← List.countP_eq_length_filter]
  simp

theorem refusals_putOut (i : Nat) (history : List (Nat × Delivery)) :
    (putOut i history).countP Delivery.isRefusal =
      history.countP fun p => p.1 == i && p.2.isRefusal := by
  rw [putOut, List.countP_filterMap]
  congr 1
  funext p
  by_cases hp : p.1 = i <;> simp [hp]

/-- Nothing is entered but for clients that have connected. -/
theorem Books.entered (h : Books g o arrived ledger history s) {p : Nat × Delivery}
    (hp : p ∈ history) : p.1 < s.connections.length := by
  refine Nat.lt_of_not_le fun hle => ?_
  have hmem : p.2 ∈ putOut p.1 history := mem_putOut.mpr hp
  rw [(h.absent p.1 hle).2.2] at hmem
  cases hmem

/-- A command makes one call at most. -/
theorem length_calls (g : Gateway) (ledger : List Taken) :
    (ledger.flatMap (Taken.calls g)).length ≤ ledger.length := by
  induction ledger with
  | nil => exact Nat.le_refl _
  | cons t ledger ih =>
      have hone : (t.calls g).length ≤ 1 := by
        rw [Taken.calls]
        cases (g.launch t.ticket t.exchange).call <;> simp
      rw [List.flatMap_cons, List.length_append, List.length_cons]
      omega

theorem Books.length_ledger (h : Books g o arrived ledger history s) :
    ledger.length = s.work.tickets := by
  rw [← List.length_map Taken.ticket, h.tickets, List.length_range]

/-- Every command is entered for one connection. -/
theorem Books.sum_takenOn (h : Books g o arrived ledger history s) :
    ∑ i ∈ range s.connections.length, (takenOn i ledger).length = ledger.length := by
  simp only [length_takenOn]
  rw [sum_countP_at Taken.connection (fun _ => true) fun t ht => h.connected ht]
  rw [List.countP_true]

/-- Every refusal is entered for one connection. -/
theorem Books.sum_putOut (h : Books g o arrived ledger history s) :
    ∑ i ∈ range s.connections.length, (putOut i history).countP Delivery.isRefusal =
      history.countP (·.2.isRefusal) := by
  simp only [refusals_putOut]
  exact sum_countP_at Prod.fst (·.2.isRefusal) fun p hp => h.entered hp

end

section

variable {g : Gateway} {o : Connection.Options} {run : List Happening} {s : Server}
  {ledger : List Taken} {history : List (Nat × Delivery)}

/-- By what its client has said, this much is known of a connection with nothing left to do. -/
theorem Books.known (h : Books g o (arrived run) ledger history s) (hends : g.AlwaysEnds) {i : Nat}
    (hstill : s.StillAt i) {c : Connection} (hc : s.connections[i]? = some c) (hsound : c.Sound) :
    Known (said o run i) (takenOn i ledger) (putOut i history) c := by
  obtain ⟨-, past, underway, hst⟩ := h.connections i c hc
  exact hstill.known hends h.options hc hsound hst

/-- Where no write has failed every client can be written to. -/
theorem Books.reached (h : Books g o (arrived run) ledger history s) {c : Connection}
    (hc : c ∈ s.connections) : c.writer.isLost = false := by
  obtain ⟨i, hi⟩ := List.mem_iff_getElem?.mp hc
  obtain ⟨-, past, underway, hst⟩ := h.connections i c hi
  exact hst.reached

/-- What is heard of a connection with nothing left to do: that it was made and, if nothing more is
heard of its client, that it has ended and with which trouble. -/
theorem Books.heard (h : Books g o (arrived run) ledger history s) (haccounts : Accounts run s)
    (hends : g.AlwaysEnds) {i : Nat} (hstill : s.StillAt i) {c : Connection}
    (hc : s.connections[i]? = some c) (hlength : s.connections.length < 2 ^ 64) :
    s.heardOf (.ofNat (i + 1)) = .connected (.ofNat (i + 1)) ::
      ((said o run i).ending.map fun why =>
        .disconnected (.ofNat (i + 1)) why.trouble?).toList := by
  have hi := (List.getElem?_eq_some_iff.mp hc).1
  have hmem := List.mem_of_getElem? hc
  have hlifecycle := (h.known hends hstill hc (haccounts.sound c hmem)).lifecycle
  simp only [h.reached hmem, Departure.withLoss_false, haccounts.sessions i c hc] at hlifecycle
  rw [haccounts.events hlength i (by omega), hc]
  exact hlifecycle

theorem countP_and_not (requests : List (List Bytes)) :
    requests.countP isCommand + requests.countP (!isCommand ·) = requests.length := by
  rw [List.length_eq_countP_add_countP isCommand]
  simp

/-- **Where this much is known of every connection the counters are exact.** The books may be those
of a server with other writers. -/
theorem Accounts.balance (haccounts : Accounts run s) {s₀ : Server}
    (h : Books g o (arrived run) ledger history s₀)
    (hlength : s₀.connections.length = s.connections.length) (hwork : s₀.work = s.work)
    (hprocessed : s₀.tally.processed = s.tally.processed)
    (hrejected : s₀.tally.rejected = s.tally.rejected)
    (hknown : ∀ i c, s.connections[i]? = some c →
      Known (said o run i) (takenOn i ledger) (putOut i history) c)
    (hwritten : ∀ c ∈ s.connections, c.writer.isLost = false →
      c.writer.written = c.writer.sent.length) : Balance o run s := by
  have hat : ∀ i ∈ range s.connections.length, ∃ c, s.connections[i]? = some c := fun i hi =>
    ⟨_, List.getElem?_eq_getElem (Finset.mem_range.mp hi)⟩
  have htaken : ledger.length =
      ∑ i ∈ range s.connections.length, (said o run i).requests.countP isCommand := by
    rw [← h.sum_takenOn, hlength]
    refine Finset.sum_congr rfl fun i hi => ?_
    obtain ⟨c, hc⟩ := hat i hi
    exact (hknown i c hc).taken
  have hrefused : history.countP (·.2.isRefusal) =
      ∑ i ∈ range s.connections.length, (said o run i).requests.countP (!isCommand ·) := by
    rw [← h.sum_putOut, hlength]
    refine Finset.sum_congr rfl fun i hi => ?_
    obtain ⟨c, hc⟩ := hat i hi
    exact (hknown i c hc).refused
  rw [h.processed, htaken] at hprocessed
  rw [h.rejected, hrefused] at hrejected
  exact
    { processed := hprocessed.symm
      rejected := hrejected.symm
      requests := by
        rw [← hprocessed, ← hrejected, ← UInt64.ofNat_add, ← Finset.sum_add_distrib]
        simp only [countP_and_not]
      calls := by
        rw [← hwork, h.calls, ← htaken]
        exact length_calls g ledger
      active := by
        have hongoing : ∀ i c, s.connections[i]? = some c →
            c.ongoing = if (said o run i).ending = none then 1 else 0 := by
          intro i c hc
          rw [Connection.ongoing, (hknown i c hc).departed]
          cases (said o run i).ending <;> rfl
        rw [haccounts.active, total_eq_sum _ _ hongoing, Finset.card_filter]
      written := hwritten
      lifecycle := by
        intro hbound i c hc
        have hi := (List.getElem?_eq_some_iff.mp hc).1
        rw [haccounts.events hbound i (by omega), hc, ← haccounts.sessions i c hc]
        exact (hknown i c hc).lifecycle }

/-- **At rest the counters are exact.** -/
theorem Books.balance (h : Books g o (arrived run) ledger history s) (haccounts : Accounts run s)
    (hends : g.AlwaysEnds) (hrest : s.AtRest) : Balance o run s := by
  refine haccounts.balance h rfl rfl rfl rfl (fun i c hc => ?_) fun c hmem hreached => ?_
  · exact h.known hends (hrest.still i) hc (haccounts.sound c (List.mem_of_getElem? hc))
  · obtain ⟨i, hc⟩ := List.mem_iff_getElem?.mp hmem
    obtain ⟨-, past, underway, hst⟩ := h.connections i c hc
    refine hst.carried.written_of_idle ?_ ((haccounts.sound c hmem).written hreached)
    rcases Writer.stuck ((hrest.still i).step? hc) with hstopped | ⟨hwaiting, hempty, -⟩
    · exact Or.inl hstopped
    · exact Or.inr ⟨hwaiting, hempty⟩

/-- Where no write has failed, the trouble that is heard is that of the reader. -/
theorem Balance.heard (h : Balance o run s)
    (hreached : ∀ c ∈ s.connections, c.writer.isLost = false)
    (hlength : s.connections.length < 2 ^ 64) {i : Nat} (hi : i < s.connections.length) :
    s.heardOf (.ofNat (i + 1)) = .connected (.ofNat (i + 1)) ::
      ((said o run i).ending.map fun why =>
        .disconnected (.ofNat (i + 1)) why.trouble?).toList := by
  rw [h.lifecycle hlength i _ (List.getElem?_eq_getElem hi), hreached _ (List.getElem_mem hi)]
  simp only [Departure.withLoss_false]

/-- Where no write has failed, all that was written has been sent. -/
theorem Books.written (h : Books g o (arrived run) ledger history s) (haccounts : Accounts run s)
    (hbalance : Balance o run s) :
    s.tally.written = .ofNat (total (·.writer.sent.length) s.connections) := by
  rw [haccounts.written, total_congr fun c hc => hbalance.written c hc (h.reached hc)]

end

theorem total_ongoing (connections : List Connection) :
    total Connection.ongoing connections = connections.countP (!·.departed) := total_toNat _ _

/-- With a number for every connection the count of those that are active is exact. -/
theorem Accounts.active_toNat {run : List Happening} {s : Server} (h : Accounts run s)
    (hlength : s.connections.length < 2 ^ 64) :
    s.tally.active.toNat = s.connections.countP (!·.departed) := by
  rw [h.active, total_ongoing]
  exact UInt64.toNat_ofNat_of_lt' (Nat.lt_of_le_of_lt List.countP_le_length hlength)

/-- It is never taken below zero, where it would jump to the largest number. -/
theorem Accounts.active_falls {run run' : List Happening} {s s' : Server} {i : Nat}
    {new : List Arrival} {c c' : Connection} (h : Accounts run s) (h' : Accounts run' s')
    (hc : s.connections[i]? = some c) (hposts : Posts s s' i new c c')
    (hlength : s.connections.length < 2 ^ 64) : s'.tally.active ≤ s.tally.active := by
  obtain ⟨n, -, hongoing⟩ := hposts.active
  have hset := total_set Connection.ongoing (b := c') hc
  rw [← hposts.connections, total_ongoing, total_ongoing] at hset
  have hlength' : s'.connections.length < 2 ^ 64 := by
    rwa [hposts.connections, List.length_set]
  rw [UInt64.le_iff_toNat_le, h.active_toNat hlength, h'.active_toNat hlength']
  omega

/-! ## Connections that are over -/

/-- The end of a connection has been made known, and nothing holds its outbox. -/
def isOver (c : Connection) : Bool :=
  c.departed && c.isFinished && c.flights.isEmpty && c.writer.isStopped && !c.writer.hasSenders

/-- A server whose connections are over is at rest. -/
theorem atRest_of_all {s : Server} (h : s.connections.all isOver = true) : s.AtRest := by
  intro m
  rw [Option.eq_none_iff_forall_ne_some]
  intro s' hstep
  obtain ⟨c, hc, heffect⟩ := perform?_effect hstep
  generalize m.connection = i at hc heffect
  have hover := List.all_eq_true.mp h c (List.mem_of_getElem? hc)
  simp only [isOver, Bool.and_eq_true, Bool.not_eq_true', List.isEmpty_iff] at hover
  obtain ⟨⟨⟨⟨hdeparted, hfinished⟩, hflights⟩, hstopped⟩, hsenders⟩ := hover
  have hreading : c.reader ≠ .reading := by
    intro hreader
    simp [Connection.isFinished, hreader] at hfinished
  cases heffect with
  | refuse hreader => exact hreading hreader
  | drain hreader => exact hreading hreader
  | takeOn hreader => exact hreading hreader
  | takeOnLast hreader => simp [Connection.isFinished, hreader] at hfinished
  | read hreader => exact hreading hreader
  | finish hreader => exact hreading hreader
  | land hfind =>
      rw [hflights] at hfind
      cases hfind
  | write hwriter =>
      rw [Writer.isStopped, beq_iff_eq] at hstopped
      simp [Writer.step?, hstopped] at hwriter
  | release _ _ hholds =>
      rw [hsenders] at hholds
      cases hholds
  | depart _ _ hunknown =>
      rw [hdeparted] at hunknown
      cases hunknown

end Server

end RespGateway
