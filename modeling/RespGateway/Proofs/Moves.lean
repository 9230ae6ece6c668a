import RespGateway.Proofs.Verdict
import RespGateway.Server

/-!
# What a move does

`Server.perform?` decides whether a move is possible and carries it out. `Effect` says
once, case by case, what comes of it and under which conditions; `perform?_effect` shows
that nothing else can happen. Later proofs about moves split on `Effect` and do not
unfold the server again.

Every move uses up some of the effort that the server has before it
(`perform?_effort`), so a server that nothing reaches comes to rest.
-/

namespace RespGateway

namespace Connection

/-- Why a reader that is reading ends, and what it leaves unread. -/
inductive Ends (o : Options) (c : Connection) : List Arrival → Departure → Prop where
  | malformed {fault : Request.Fault} : Request.decode c.buffer = .malformed fault →
      Ends o c c.inbox (.troubled (.malformed fault))
  | oversized : Request.decode c.buffer = .incomplete → o.maxBuffer ≤ c.buffer.length →
      Ends o c c.inbox (.troubled .oversized)
  | left {inbox : List Arrival} : Request.decode c.buffer = .incomplete →
      ¬o.maxBuffer ≤ c.buffer.length → c.inbox = .endOfInput :: inbox →
      Ends o c inbox (if c.buffer.isEmpty then .left else .troubled .cutShort)
  | reset {inbox : List Arrival} : Request.decode c.buffer = .incomplete →
      ¬o.maxBuffer ≤ c.buffer.length → c.inbox = .reset :: inbox →
      Ends o c inbox (.troubled .reset)

end Connection

namespace Server

/-- The connection that a move is of. -/
def Move.connection : Move → Nat
  | .reader i => i
  | .land i _ => i
  | .writer i => i
  | .release i => i
  | .depart i => i

/-- What a move of connection `i`, which is `c`, makes of a server. -/
inductive Effect (s : Server) (i : Nat) (c : Connection) : Move → Server → Prop where
  /-- The reader refuses the arguments of a request. -/
  | refuse {arguments : List Bytes} {consumed : Nat} {why : Exchange.Refusal} :
      c.reader = .reading → Request.decode c.buffer = .complete arguments consumed →
      Exchange.decode c.session arguments = .error why →
      Effect s i c (.reader i)
        { s.withConnection i ({ c with buffer := c.buffer.drop consumed }.offer
            (.rejection why.reply)) with
          tally := s.tally.commandRejected }
  /-- The reader finds a last command. -/
  | drain {arguments : List Bytes} {consumed : Nat} {x : Exchange} :
      c.reader = .reading → Request.decode c.buffer = .complete arguments consumed →
      Exchange.decode c.session arguments = .ok x → x.command = .quit →
      Effect s i c (.reader i)
        (s.withConnection i { c with buffer := c.buffer.drop consumed, reader := .draining x })
  /-- The reader takes on a command. -/
  | takeOn {arguments : List Bytes} {consumed : Nat} {x : Exchange} :
      c.reader = .reading → Request.decode c.buffer = .complete arguments consumed →
      Exchange.decode c.session arguments = .ok x → x.command ≠ .quit →
      Effect s i c (.reader i) (s.takeOn i { c with buffer := c.buffer.drop consumed } x)
  /-- The reader takes on a last command. -/
  | takeOnLast {x : Exchange} : c.reader = .draining x → c.flights = [] →
      Effect s i c (.reader i) (s.takeOn i c x)
  /-- The reader reads a piece. -/
  | read {piece : Bytes} {inbox : List Arrival} :
      c.reader = .reading → Request.decode c.buffer = .incomplete →
      ¬s.options.maxBuffer ≤ c.buffer.length → c.inbox = .bytes piece :: inbox →
      Effect s i c (.reader i)
        { s.withConnection i { c with inbox, buffer := c.buffer ++ piece } with
          tally := s.tally.bytesRead piece.length }
  /-- The reader ends. -/
  | finish {inbox : List Arrival} {why : Departure} :
      c.reader = .reading → c.Ends s.options inbox why →
      Effect s i c (.reader i) (s.withConnection i ({ c with inbox }.finish why))
  /-- A command ends. -/
  | land {ticket : Nat} {flight : Flight} {moment : Moment} {landing : Landing} :
      c.flights.find? (·.ticket == ticket) = some flight →
      flight.outcome = some (moment, landing) →
      Effect s i c (.land i ticket)
        { s.withConnection i
            { c with
              flights := c.flights.filter (·.ticket != ticket)
              reader := c.reader.afterLanding ticket
              writer := { c.writer with
                outbox := (s.work.deliver landing c.writer.outbox).1 } } with
          work := (s.work.deliver landing c.writer.outbox).2
          clock := max s.clock moment.time }
  /-- The writer goes a step on. -/
  | write {writer : Writer} : c.writer.step? = some writer →
      Effect s i c (.writer i)
        { s.withConnection i { c with writer } with
          tally := s.tally.bytesWritten (writer.written - c.writer.written) }
  /-- The outbox is let go of. -/
  | release : c.isFinished = true → c.flights = [] → c.writer.hasSenders = true →
      Effect s i c (.release i) (s.withConnection i { c with writer := c.writer.release })
  /-- The end of the connection is made known. -/
  | depart {why : Departure} : c.reader = .finished why → c.writer.isStopped = true →
      c.departed = false →
      Effect s i c (.depart i)
        { s.withConnection i { c with departed := true } with
          tally := s.tally.closed
          events := s.events ++
            [.disconnected c.session (why.withLoss c.writer.isLost).trouble?] }

theorem readArrival?_effect {s s' : Server} {i : Nat} {c : Connection}
    (hreader : c.reader = .reading) (hd : Request.decode c.buffer = .incomplete)
    (hroom : ¬s.options.maxBuffer ≤ c.buffer.length) (h : s.readArrival? i c = some s') :
    Effect s i c (.reader i) s' := by
  unfold readArrival? at h
  split at h
  · cases h
  · rename_i piece inbox hinbox
    cases h
    exact .read hreader hd hroom hinbox
  · rename_i inbox hinbox
    cases h
    exact .finish hreader (.left hd hroom hinbox)
  · rename_i inbox hinbox
    cases h
    exact .finish hreader (.reset hd hroom hinbox)

theorem stepReader?_effect {s s' : Server} {i : Nat} {c : Connection}
    (h : s.stepReader? i c = some s') : Effect s i c (.reader i) s' := by
  unfold stepReader? at h
  split at h
  · rename_i hreader
    cases hd : Request.decode c.buffer with
    | complete arguments consumed =>
        simp only [hd, handle] at h
        cases hx : Exchange.decode c.session arguments with
        | error why =>
            simp only [hx] at h
            cases h
            exact .refuse hreader hd hx
        | ok x =>
            simp only [hx] at h
            by_cases hquit : x.command = .quit
            · rw [if_pos hquit] at h
              cases h
              exact .drain hreader hd hx hquit
            · rw [if_neg hquit] at h
              cases h
              exact .takeOn hreader hd hx hquit
    | malformed fault =>
        simp only [hd] at h
        cases h
        exact .finish hreader (.malformed hd)
    | incomplete =>
        simp only [hd] at h
        by_cases hroom : s.options.maxBuffer ≤ c.buffer.length
        · rw [if_pos hroom] at h
          cases h
          exact .finish hreader (.oversized hd hroom)
        · rw [if_neg hroom] at h
          exact readArrival?_effect hreader hd hroom h
  · rename_i x hreader
    split at h
    · rename_i hflights
      cases h
      exact .takeOnLast hreader (List.isEmpty_iff.mp hflights)
    · cases h
  · cases h
  · cases h

theorem land?_effect {s s' : Server} {i ticket : Nat} {c : Connection}
    (h : s.land? i c ticket = some s') : Effect s i c (.land i ticket) s' := by
  unfold land? at h
  split at h
  · cases h
  · rename_i moment landing hfound
    obtain ⟨flight, hflight, houtcome⟩ := Option.bind_eq_some_iff.mp hfound
    cases h
    exact .land hflight houtcome

/-- **What a move does is one of the effects.** -/
theorem perform?_effect {s s' : Server} {m : Move} (h : s.perform? m = some s') :
    ∃ c, s.connections[m.connection]? = some c ∧ Effect s m.connection c m s' := by
  cases m with
  | reader i =>
      obtain ⟨c, hc, hstep⟩ := Option.bind_eq_some_iff.mp h
      exact ⟨c, hc, stepReader?_effect hstep⟩
  | land i ticket =>
      obtain ⟨c, hc, hstep⟩ := Option.bind_eq_some_iff.mp h
      exact ⟨c, hc, land?_effect hstep⟩
  | writer i =>
      obtain ⟨c, hc, hstep⟩ := Option.bind_eq_some_iff.mp h
      obtain ⟨writer, hwriter, heq⟩ := Option.map_eq_some_iff.mp hstep
      subst heq
      exact ⟨c, hc, .write hwriter⟩
  | release i =>
      obtain ⟨c, hc, hstep⟩ := Option.bind_eq_some_iff.mp h
      unfold release? at hstep
      split at hstep
      · rename_i hfree
        cases hstep
        exact ⟨c, hc, .release hfree.1 (List.isEmpty_iff.mp hfree.2.1) hfree.2.2⟩
      · cases hstep
  | depart i =>
      obtain ⟨c, hc, hstep⟩ := Option.bind_eq_some_iff.mp h
      unfold depart? at hstep
      split at hstep
      · rename_i why hreader
        split at hstep
        · rename_i hgone
          cases hstep
          exact ⟨c, hc, .depart hreader hgone.1 (by simpa using hgone.2)⟩
        · cases hstep
      · cases hstep

/-- A move changes no connection but its own. -/
theorem Effect.connections {s s' : Server} {i : Nat} {c : Connection} {m : Move}
    (h : Effect s i c m s') : ∃ c', s'.connections = s.connections.set i c' := by
  cases h <;> exact ⟨_, rfl⟩

/-! ## Every move uses up effort -/

/-- An entry that is put in the place of another changes the sum by the difference of the two. -/
theorem total_set {α : Type} (f : α → Nat) {a b : α} :
    ∀ {l : List α} {i : Nat}, l[i]? = some a → total f (l.set i b) + f a = total f l + f b
  | [], i, hi => by simp at hi
  | x :: l, 0, hi => by
      obtain rfl : x = a := by simpa using hi
      simp only [List.set_cons_zero, total]
      omega
  | x :: l, i + 1, hi => by
      have := total_set f (b := b) (show l[i]? = some a by simpa using hi)
      simp only [List.set_cons_succ, total]
      omega

theorem effort_set {s s' : Server} {i : Nat} {c c' : Connection} (hc : s.connections[i]? = some c)
    (hs' : s'.connections = s.connections.set i c')
    (h : connectionEffort c' < connectionEffort c) : s'.effort < s.effort := by
  have := total_set connectionEffort (b := c') hc
  unfold effort
  rw [hs']
  omega

theorem offer_waiting_le (o : Outbox) (item : Outgoing) :
    (o.offer item).waiting.length ≤ o.waiting.length + 1 := by
  unfold Outbox.offer Outbox.push
  cases o.isOpen <;> simp

theorem deliver_waiting_le (work : Gateway.State) (landing : Landing) (o : Outbox) :
    (work.deliver landing o).1.waiting.length ≤ o.waiting.length + 1 := by
  unfold Gateway.State.deliver
  split
  · exact offer_waiting_le o _
  · exact Nat.le_succ _

theorem connectionEffort_offer (c : Connection) (item : Outgoing) :
    connectionEffort (c.offer item) ≤ connectionEffort c + 2 := by
  have := offer_waiting_le c.writer.outbox item
  simp only [connectionEffort, writerEffort, Connection.offer, Writer.offer]
  omega

theorem connectionEffort_finish {c : Connection} (h : c.reader = .reading) (why : Departure) :
    connectionEffort (c.finish why) < connectionEffort c := by
  unfold Connection.finish
  split
  · rename_i r _
    have := connectionEffort_offer c (.rejection r)
    have hreader : (c.offer (.rejection r)).reader = .reading := h
    simp only [connectionEffort, readerEffort, hreader, h] at this ⊢
    omega
  · simp only [connectionEffort, readerEffort, h]
    omega

theorem readerEffort_afterLanding (ticket : Nat) (r : Reader) :
    readerEffort (r.afterLanding ticket) ≤ readerEffort r := by
  cases r with
  | awaiting awaited last =>
      simp only [Reader.afterLanding]
      split
      · cases last <;> simp [readerEffort]
      · exact Nat.le_refl _
  | _ => exact Nat.le_refl _

theorem writerEffort_step {w w' : Writer} (h : w.step? = some w') :
    writerEffort w' < writerEffort w := by
  unfold Writer.step? at h
  cases hphase : w.phase with
  | waiting =>
      cases hwaiting : w.outbox.waiting with
      | nil =>
          simp only [hphase, Outbox.take?, hwaiting] at h
          split at h
          · cases h
          · cases h
            simp [writerEffort, hphase]
      | cons item waiting =>
          simp only [hphase, Outbox.take?, hwaiting] at h
          cases h
          simp only [writerEffort, Writer.write, hphase, hwaiting, List.length_cons]
          omega
  | wrote last =>
      simp only [hphase] at h
      cases h
      -- a flush changes nothing that counts
      have hflushed : ∀ b : Bool, writerEffort
          { (if b then w.flush else w) with phase := if last then .closing else .waiting } =
            2 * w.outbox.waiting.length + (if last then 1 else 2) + w.hasSenders.toNat := by
        intro b
        cases b <;> cases last <;> rfl
      rw [hflushed]
      simp only [writerEffort, hphase]
      split <;> omega
  | closing =>
      simp only [hphase] at h
      cases h
      simp only [writerEffort, Writer.flush, Outbox.close, hphase, List.length_nil]
      omega
  | stopped =>
      simp only [hphase] at h
      cases h

theorem exists_find?_ticket {flights : List Flight} {f : Flight} (hf : f ∈ flights) :
    ∃ f', flights.find? (·.ticket == f.ticket) = some f' := by
  have hfound : (flights.find? (·.ticket == f.ticket)).isSome = true := by
    rw [List.find?_isSome]
    exact ⟨f, hf, beq_self_eq_true _⟩
  exact Option.isSome_iff_exists.mp hfound

theorem filter_ticket_lt {flights : List Flight} {ticket : Nat} {f : Flight}
    (h : flights.find? (·.ticket == ticket) = some f) :
    (flights.filter (·.ticket != ticket)).length < flights.length := by
  refine List.length_filter_lt_length_iff_exists.mpr ⟨f, List.mem_of_find?_eq_some h, ?_⟩
  have : f.ticket = ticket := by simpa using List.find?_some h
  simp [this]

/-- A command that is taken on has its flight under way, and the reader waits for it or reads on. -/
theorem connectionEffort_takeOn (s : Server) (i : Nat) (c : Connection) (x : Exchange) :
    ∃ c', (s.takeOn i c x).connections = s.connections.set i c' ∧
      connectionEffort c' + readerEffort c.reader = connectionEffort c + 6 := by
  refine ⟨_, rfl, ?_⟩
  have hreader : ∀ (b : Bool) (t : Nat) (last : Bool),
      readerEffort (if b then .awaiting t last else .reading) = 3 := by
    intro b t last
    cases b <;> rfl
  simp only [connectionEffort, List.length_append, List.length_singleton, hreader]
  omega

/-- **Every move uses up effort.** -/
theorem perform?_effort {s s' : Server} {m : Move} (h : s.perform? m = some s') :
    s'.effort < s.effort := by
  obtain ⟨c, hc, he⟩ := perform?_effect h
  generalize m.connection = i at hc he
  -- a request takes three bytes or more, which pays for its reply or its flight
  have hused : ∀ {arguments : List Bytes} {consumed : Nat},
      Request.decode c.buffer = .complete arguments consumed →
      connectionEffort { c with buffer := c.buffer.drop consumed } + 6 ≤ connectionEffort c := by
    intro arguments consumed hd
    obtain ⟨h3, hle, -⟩ := Request.decode_complete hd
    simp only [connectionEffort, List.length_drop]
    omega
  cases he with
  | @refuse arguments consumed why hreader hd hx =>
      refine effort_set hc rfl ?_
      have := hused hd
      have := connectionEffort_offer { c with buffer := c.buffer.drop consumed }
        (.rejection why.reply)
      omega
  | @drain arguments consumed x hreader hd hx hquit =>
      refine effort_set hc rfl ?_
      have := hused hd
      simp only [connectionEffort, readerEffort, hreader] at this ⊢
      omega
  | @takeOn arguments consumed x hreader hd hx hquit =>
      obtain ⟨c', hc', heffort⟩ := connectionEffort_takeOn s i
        { c with buffer := c.buffer.drop consumed } x
      refine effort_set hc hc' ?_
      have := hused hd
      have hthree : readerEffort c.reader = 3 := by rw [hreader]; rfl
      dsimp only at heffort
      omega
  | @takeOnLast x hreader hflights =>
      obtain ⟨c', hc', heffort⟩ := connectionEffort_takeOn s i c x
      refine effort_set hc hc' ?_
      have hseven : readerEffort c.reader = 7 := by rw [hreader]; rfl
      omega
  | @read piece inbox hreader hd hroom hinbox =>
      refine effort_set hc rfl ?_
      simp only [connectionEffort, hinbox, total, arrivalEffort, List.length_append]
      omega
  | @finish inbox why hreader hends =>
      refine effort_set hc rfl ?_
      have hle : total arrivalEffort inbox ≤ total arrivalEffort c.inbox := by
        cases hends with
        | malformed => exact Nat.le_refl _
        | oversized => exact Nat.le_refl _
        | left _ _ hinbox =>
            rw [hinbox, total]
            omega
        | reset _ _ hinbox =>
            rw [hinbox, total]
            omega
      have := connectionEffort_finish (c := { c with inbox }) hreader why
      simp only [connectionEffort] at this ⊢
      omega
  | @land ticket flight moment landing hfind houtcome =>
      refine effort_set hc rfl ?_
      have := filter_ticket_lt hfind
      have := readerEffort_afterLanding ticket c.reader
      have := deliver_waiting_le s.work landing c.writer.outbox
      simp only [connectionEffort, writerEffort]
      omega
  | @write writer hwriter =>
      refine effort_set hc rfl ?_
      have := writerEffort_step hwriter
      simp only [connectionEffort]
      omega
  | release hfinished hflights hsenders =>
      refine effort_set hc rfl ?_
      simp only [connectionEffort, writerEffort, Writer.release, hsenders, Bool.toNat_true,
        Bool.toNat_false]
      omega
  | depart hreader hstopped hdeparted =>
      refine effort_set hc rfl ?_
      simp [connectionEffort, hdeparted]

end Server

end RespGateway
