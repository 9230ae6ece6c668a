import RespGateway.Proofs.Books

/-!
# Servers at rest

Where every call ends or is given up, a server at rest has nothing left to do for any
client: a connection either waits for more from its client, or has ended, with its writer
stopped and its end made known. In both cases every request that was heard has been
taken off the stream and no command is under way. The same holds of one connection as soon
as no move of it is possible, whatever the server does for the others.

What its reader has left to do does not depend on its writer (`StillAt.exhausted`).
-/

namespace RespGateway

/-- The reader of a connection has nothing left to do. -/
inductive Connection.Exhausted (o : Options) (c : Connection) : Prop where
  /-- It waits for more from its client. -/
  | listening : c.reader = .reading → Request.decode c.buffer = .incomplete →
      ¬o.maxBuffer ≤ c.buffer.length → c.inbox = [] → Exhausted o c
  /-- It has ended. -/
  | ended {why : Departure} : c.reader = .finished why → Exhausted o c

/-- With another writer its reader has no more to do. -/
theorem Connection.Exhausted.same {o : Options} {c : Connection} (h : c.Exhausted o)
    {writer : Writer} {departed : Bool} :
    ({ c with writer, departed } : Connection).Exhausted o := by
  cases h with
  | listening hreader hd hroom hinbox => exact .listening hreader hd hroom hinbox
  | ended hreader => exact .ended hreader

/-- A connection with nothing left to do. -/
inductive Connection.Settled (o : Options) (c : Connection) : Prop where
  /-- It waits for more from its client. -/
  | listening : c.reader = .reading → Request.decode c.buffer = .incomplete →
      ¬o.maxBuffer ≤ c.buffer.length → c.inbox = [] → c.writer.hasSenders = true →
      c.writer.phase = .stopped ∨ c.writer.phase = .waiting ∧ c.writer.outbox.waiting = [] →
      Settled o c
  /-- It has ended. -/
  | ended {why : Departure} : c.reader = .finished why → c.writer.phase = .stopped →
      c.departed = true → Settled o c

theorem Connection.Settled.exhausted {o : Connection.Options} {c : Connection}
    (h : c.Settled o) : c.Exhausted o := by
  cases h with
  | listening hreader hd hroom hinbox _ _ => exact .listening hreader hd hroom hinbox
  | ended hreader _ _ => exact .ended hreader

namespace Server

variable {g : Gateway} {o : Connection.Options} {arrived : Nat → List Arrival}
  {ledger : List Taken} {history : List (Nat × Delivery)} {s : Server} {i : Nat} {c : Connection}
  {past : List (List Bytes)} {underway : List Taken}

/-- No move of a connection is possible. -/
def StillAt (s : Server) (i : Nat) : Prop := ∀ m : Move, m.connection = i → s.perform? m = none

theorem AtRest.still (h : s.AtRest) (i : Nat) : s.StillAt i := fun m _ => h m

theorem StillAt.stepReader? (h : s.StillAt i) (hc : s.connections[i]? = some c) :
    s.stepReader? i c = none := by
  have := h (.reader i) rfl
  rwa [perform?, hc, Option.bind_some] at this

theorem StillAt.step? (h : s.StillAt i) (hc : s.connections[i]? = some c) :
    c.writer.step? = none := by
  have := h (.writer i) rfl
  rw [perform?, hc, Option.bind_some, stepWriter?] at this
  exact Option.map_eq_none_iff.mp this

/-- No command is under way: it could end. -/
theorem StillAt.flights (h : s.StillAt i) (hends : g.AlwaysEnds) (hc : s.connections[i]? = some c)
    (hflies : List.Forall₂ (Taken.Flies g) underway c.flights) : c.flights = [] := by
  rw [List.eq_nil_iff_forall_not_mem]
  intro f hf
  obtain ⟨f', hf'⟩ := exists_find?_ticket hf
  -- the first flight with this ticket need not be `f`, but it too is of a command that ends
  obtain ⟨t, -, -, now, houtcome⟩ := Forall₂.mem_right hflies (List.mem_of_find?_eq_some hf')
  obtain ⟨moment, landing, hlaunch⟩ := launch_ends hends t.ticket t.exchange
  have hland := h (.land i f.ticket) rfl
  rw [perform?, hc, Option.bind_some, land?, hf', Option.bind_some, houtcome, hlaunch] at hland
  cases hland

theorem StillAt.exhausted_reading (h : s.StillAt i) (ho : s.options = o)
    (hc : s.connections[i]? = some c) (hreader : c.reader = .reading) : c.Exhausted o := by
  have hstep := h.stepReader? hc
  unfold Server.stepReader? at hstep
  simp only [hreader] at hstep
  cases hd : Request.decode c.buffer with
  | complete arguments consumed => simp [hd] at hstep
  | malformed fault => simp [hd] at hstep
  | incomplete =>
      simp only [hd] at hstep
      by_cases hroom : s.options.maxBuffer ≤ c.buffer.length
      · rw [if_pos hroom] at hstep
        cases hstep
      · rw [if_neg hroom] at hstep
        rw [ho] at hroom
        refine .listening hreader hd hroom ?_
        cases hinbox : c.inbox with
        | nil => rfl
        | cons a inbox =>
            rw [readArrival?, hinbox] at hstep
            cases a <;> cases hstep

/-- **The reader of a connection of which no move is possible has nothing left to do**, and nothing
is under way. What stands in the account of the connection may be that of another writer. -/
theorem StillAt.exhausted (h : s.StillAt i) (hends : g.AlwaysEnds) (ho : s.options = o)
    (hc : s.connections[i]? = some c) {writer : Writer} {departed : Bool} {arrivals : List Arrival}
    {taken : List Taken} {put : List Delivery}
    (hst : Standing g o arrivals taken put { c with writer, departed } past underway) :
    c.Exhausted o ∧ c.flights = [] ∧ underway = [] := by
  have hflights : c.flights = [] := h.flights hends hc hst.flights
  obtain rfl := hst.underway_of_flights hflights
  refine ⟨?_, hflights, rfl⟩
  cases hreader : c.reader with
  | reading => exact h.exhausted_reading ho hc hreader
  | awaiting ticket last =>
      have hstage := hst.stage
      simp only [hreader] at hstage
      obtain ⟨t, ht, -, -⟩ := hstage
      cases ht
  | draining x =>
      have hstep := h.stepReader? hc
      simp [Server.stepReader?, hreader, hflights] at hstep
  | finished why => exact .ended hreader

/-- A connection whose reader has ended, and of which no move is possible, has ended. -/
theorem StillAt.ended (h : s.StillAt i) (hc : s.connections[i]? = some c)
    {why : Departure} (hreader : c.reader = .finished why) (hflights : c.flights = []) :
    c.writer.phase = .stopped ∧ c.departed = true := by
  have hsenders : c.writer.hasSenders = false := by
    have hrelease := h (.release i) rfl
    rw [perform?, hc, Option.bind_some, release?] at hrelease
    simpa [Connection.isFinished, hreader, hflights] using hrelease
  have hstopped : c.writer.phase = .stopped := by
    rcases Writer.stuck (h.step? hc) with hstopped | ⟨-, -, htrue⟩
    · exact hstopped
    · rw [hsenders] at htrue
      cases htrue
  refine ⟨hstopped, ?_⟩
  have hdepart := h (.depart i) rfl
  rw [perform?, hc, Option.bind_some, depart?, hreader] at hdepart
  simpa [Writer.isStopped, hstopped] using hdepart

/-- **A connection of which no move is possible has nothing left to do.** -/
theorem Books.settledAt (h : Books g o arrived ledger history s) (hends : g.AlwaysEnds)
    (hstill : s.StillAt i) (hc : s.connections[i]? = some c) :
    c.Settled o ∧
      ∃ past, Standing g o (arrived i) (takenOn i ledger) (putOut i history) c past [] := by
  obtain ⟨-, past, underway, hst⟩ := h.connections i c hc
  obtain ⟨hexhausted, hflights, rfl⟩ := hstill.exhausted hends h.options hc hst
  refine ⟨?_, past, hst⟩
  cases hexhausted with
  | ended hreader =>
      obtain ⟨hstopped, hgone⟩ := hstill.ended hc hreader hflights
      exact .ended hreader hstopped hgone
  | listening hreader hd hroom hinbox =>
      refine .listening hreader hd hroom hinbox (hst.hasSenders hreader) ?_
      rcases Writer.stuck (hstill.step? hc) with hstopped | ⟨hwaiting, hempty, -⟩
      · exact Or.inl hstopped
      · exact Or.inr ⟨hwaiting, hempty⟩

/-- At rest every connection has nothing left to do. -/
theorem Books.settled (h : Books g o arrived ledger history s) (hends : g.AlwaysEnds)
    (hrest : s.AtRest) (hc : s.connections[i]? = some c) :
    c.Settled o ∧
      ∃ past, Standing g o (arrived i) (takenOn i ledger) (putOut i history) c past [] :=
  h.settledAt hends (hrest.still i) hc

end Server

/-! ## What has been heard -/

variable {g : Gateway} {o : Connection.Options} {arrived : List Arrival} {taken : List Taken}
  {put : List Delivery} {c : Connection} {past : List (List Bytes)} {underway : List Taken}

/-- A reader with nothing left to do has taken all requests off the stream. -/
theorem Standing.heard_exhausted (h : Standing g o arrived taken put c past underway)
    (hexhausted : c.Exhausted o) :
    Transcript.ofArrivals o.maxBuffer [] arrived =
      match c.reader with
      | .finished why => (Transcript.ended why).after past
      | _ => ⟨past, none, c.buffer⟩ := by
  rw [h.heard_now]
  cases hexhausted with
  | listening hreader hd hroom hinbox =>
      simp only [Connection.outlook, hreader, hinbox, List.append_nil]
      rw [Transcript.ofArrivals_incomplete hd, if_neg hroom]
      simp [Transcript.further, Transcript.after]
  | ended hreader => simp only [Connection.outlook, hreader]

/-- Without commands under way every request has been answered. -/
theorem Standing.answered (h : Standing g o arrived taken put c past [])
    (hexhausted : c.Exhausted o) :
    Arranged o (past.map (Exchange.decode c.session)) (put.filterMap Delivery.request?) := by
  have hheld : c.reader.held = [] := by
    cases hexhausted with
    | listening hreader _ _ _ => rw [hreader]; rfl
    | ended hreader => rw [hreader]; rfl
  have hopened := h.opened
  rw [hheld, List.map_nil, List.append_nil, List.append_nil] at hopened
  exact hopened

end RespGateway
