import Mathlib.Algebra.Group.Nat.Defs
import RespGateway.Proofs.Books

/-!
# The accounts of a server

The tally of a server is kept apart from its connections, and so are the events that an
observer hears. Both say the same as the connections: what a move takes from one side of an
account it puts on the other (`Posts`), so at any time of any run

* the bytes that have arrived were counted when they were read or still wait to be read,
* the bytes counted as written are those that the writers have written,
* the connections counted as active are those whose end has not been made known, and
* what was heard of a connection is that it was made and, once it has ended, how.

A writer that is lost keeps the account of what it had written; without that, what it has
written has been sent or stands in its buffer.

The counters are words of 64 bits, so all this holds modulo `2 ^ 64`.
-/

namespace RespGateway

/-! ## The sides of the accounts -/

/-- The session that an event is about. -/
def Server.Event.session : Server.Event → UInt64
  | .connected session => session
  | .disconnected session _ => session

/-- How many bytes an arrival brings. -/
def Arrival.size : Arrival → Nat
  | .bytes piece => piece.length
  | _ => 0

/-- How many bytes a writer has sent or holds in its buffer. -/
def Writer.output (w : Writer) : Nat := w.sent.length + w.buffered.length

namespace Connection

/-- How many bytes have arrived and have not been read. -/
def unread (c : Connection) : Nat := Server.total Arrival.size c.inbox

/-- A connection counts as long as its end has not been made known. -/
def ongoing (c : Connection) : Nat := (!c.departed).toNat

/-- Why the reader has ended. -/
def departure? (c : Connection) : Option Departure :=
  match c.reader with
  | .finished why => some why
  | _ => none

/-- Why a connection has ended, its writer taken into account. -/
def ending? (c : Connection) : Option Departure :=
  c.departure?.map (·.withLoss c.writer.isLost)

/-- What is heard of a connection: that it was made and, once it has ended, how. -/
def lifecycle (c : Connection) : List Server.Event :=
  .connected c.session ::
    if c.departed then [.disconnected c.session (c.ending?.bind Departure.trouble?)] else []

/-- What is so of every connection of a server. -/
structure Sound (c : Connection) : Prop where
  /-- The end of a connection is made known after its reader and its writer have ended. -/
  departed : c.departed = true → c.departure?.isSome = true ∧ c.writer.phase = .stopped
  /-- A writer whose client can be written to has sent what it has written, or holds it. -/
  written : c.writer.isLost = false → c.writer.written = c.writer.output

end Connection

/-! ## Steps of a writer -/

namespace Writer

/-- Between two states of a writer nothing was written, and it did not end. -/
structure Keeps (w w' : Writer) : Prop where
  written : w'.written = w.written
  output : w'.output = w.output
  isLost : w'.isLost = w.isLost
  phase : w'.phase = w.phase

/-- A writer counts what it writes. -/
theorem written_step {w w' : Writer} (h : w.step? = some w') :
    w.phase ≠ .stopped ∧ w.written ≤ w'.written ∧
      w'.output = w.output + (w'.written - w.written) := by
  have hflush : ∀ v : Writer, v.flush.output = v.output := by
    intro v
    simp [Writer.flush, Writer.output]
  have hkeep : ∀ v : Writer, v.written = w.written → v.output = w.output →
      w.written ≤ v.written ∧ v.output = w.output + (v.written - w.written) := by
    intro v hwritten houtput
    omega
  unfold Writer.step? at h
  cases hphase : w.phase with
  | waiting =>
      simp only [hphase] at h
      refine ⟨by simp, ?_⟩
      split at h
      · rename_i item outbox _
        cases h
        simp only [Writer.output, Writer.write, List.length_append]
        omega
      · split at h
        · cases h
        · cases h
          exact hkeep _ rfl rfl
  | wrote last =>
      simp only [hphase] at h
      cases h
      refine ⟨by simp, hkeep _ ?_ ?_⟩
      · dsimp only
        split <;> rfl
      · split
        · exact hflush w
        · rfl
  | closing =>
      simp only [hphase] at h
      cases h
      exact ⟨by simp, hkeep _ rfl (hflush w)⟩
  | stopped =>
      simp only [hphase] at h
      cases h

/-- What a write that fails leaves of a writer. -/
theorem fail?_cases {w w' : Writer} {count : Nat} (h : w.fail? count = some w') :
    w.phase ≠ .stopped ∧ ∃ pending, w' = w.lose (pending.take count) ∧
      (pending = w.buffered ∨
        w.phase = .waiting ∧ ∃ item outbox, w.outbox.take? = some (item, outbox) ∧
          pending = w.buffered ++ item.content.encode) := by
  unfold Writer.fail? at h
  cases hphase : w.phase with
  | waiting =>
      simp only [hphase] at h
      obtain ⟨⟨item, outbox⟩, htake, rfl⟩ := Option.map_eq_some_iff.mp h
      exact ⟨by simp, _, rfl, Or.inr ⟨rfl, item, outbox, htake, rfl⟩⟩
  | wrote last =>
      simp only [hphase] at h
      split at h
      · cases h
        exact ⟨by simp, _, rfl, Or.inl rfl⟩
      · cases h
  | closing =>
      simp only [hphase] at h
      cases h
      exact ⟨by simp, _, rfl, Or.inl rfl⟩
  | stopped =>
      simp only [hphase] at h
      cases h

end Writer

namespace Server

/-! ## What a move puts to the accounts -/

/-- What is put to the accounts where connection `i`, which was `c`, becomes `c'`, and `new` arrives
from its client. -/
structure Posts (s s' : Server) (i : Nat) (new : List Arrival) (c c' : Connection) : Prop where
  connections : s'.connections = s.connections.set i c'
  accepted : s'.tally.accepted = s.tally.accepted
  session : c'.session = c.session
  /-- What was read is not unread any more. -/
  read : ∃ n, s'.tally.read = s.tally.read + .ofNat n ∧
    n + c'.unread = c.unread + total Arrival.size new
  inbox : c'.inbox <:+ c.inbox ++ new
  written : ∃ n, s'.tally.written = s.tally.written + .ofNat n ∧
    c'.writer.written = c.writer.written + n
  active : ∃ n, s'.tally.active = s.tally.active - .ofNat n ∧ c'.ongoing + n = c.ongoing
  /-- What is heard is about this connection. -/
  events : ∃ new, s'.events = s.events ++ new ∧ c'.lifecycle = c.lifecycle ++ new ∧
    ∀ e ∈ new, e.session = c.session
  sound : c'.Sound

section

variable {s s' : Server} {i : Nat} {c c' : Connection}

theorem sound_kept (h : c.Sound) (hdeparted : c'.departed = c.departed)
    (hreader : ∀ why, c.departure? = some why → c'.departure? = some why)
    (hwriter : c.writer.Keeps c'.writer) : c'.Sound where
  departed := by
    intro hgone
    obtain ⟨hsome, hstopped⟩ := h.departed (hdeparted ▸ hgone)
    obtain ⟨why, hwhy⟩ := Option.isSome_iff_exists.mp hsome
    rw [hreader why hwhy]
    exact ⟨rfl, hwriter.phase.trans hstopped⟩
  written := by
    rw [hwriter.isLost, hwriter.written, hwriter.output]
    exact h.written

/-- Where no end is made known nothing is heard. -/
theorem events_kept (h : c.Sound) (hevents : s'.events = s.events)
    (hsession : c'.session = c.session) (hdeparted : c'.departed = c.departed)
    (hreader : ∀ why, c.departure? = some why → c'.departure? = some why)
    (hlost : c.departed = true → c'.writer.isLost = c.writer.isLost) :
    ∃ new, s'.events = s.events ++ new ∧ c'.lifecycle = c.lifecycle ++ new ∧
      ∀ e ∈ new, e.session = c.session := by
  refine ⟨[], by rw [hevents, List.append_nil], ?_, by simp⟩
  simp only [Connection.lifecycle, hsession, hdeparted, List.append_nil]
  by_cases hgone : c.departed = true
  · obtain ⟨why, hwhy⟩ := Option.isSome_iff_exists.mp (h.departed hgone).1
    rw [Connection.ending?, Connection.ending?, hreader why hwhy, hwhy, hlost hgone]
  · simp [hgone]

theorem active_kept (hactive : s'.tally.active = s.tally.active)
    (hdeparted : c'.departed = c.departed) :
    ∃ n, s'.tally.active = s.tally.active - .ofNat n ∧ c'.ongoing + n = c.ongoing :=
  ⟨0, hactive.trans (UInt64.sub_zero _).symm, by simp [Connection.ongoing, hdeparted]⟩

theorem read_kept {new : List Arrival} (hread : s'.tally.read = s.tally.read)
    (hunread : c'.unread = c.unread + total Arrival.size new) :
    ∃ n, s'.tally.read = s.tally.read + .ofNat n ∧
      n + c'.unread = c.unread + total Arrival.size new :=
  ⟨0, hread.trans (UInt64.add_zero _).symm, (Nat.zero_add _).trans hunread⟩

theorem written_kept (htally : s'.tally.written = s.tally.written)
    (hwritten : c'.writer.written = c.writer.written) :
    ∃ n, s'.tally.written = s.tally.written + .ofNat n ∧
      c'.writer.written = c.writer.written + n :=
  ⟨0, htally.trans (UInt64.add_zero _).symm, hwritten⟩

/-- Nothing is read or written, and no end is made known. -/
theorem posts_quiet {new : List Arrival} (h : c.Sound)
    (hconnections : s'.connections = s.connections.set i c')
    (htally : s'.tally.accepted = s.tally.accepted ∧ s'.tally.read = s.tally.read ∧
      s'.tally.written = s.tally.written ∧ s'.tally.active = s.tally.active)
    (hevents : s'.events = s.events) (hsession : c'.session = c.session)
    (hinbox : c'.inbox <:+ c.inbox ++ new)
    (hunread : c'.unread = c.unread + total Arrival.size new)
    (hwriter : c.writer.Keeps c'.writer) (hdeparted : c'.departed = c.departed)
    (hreader : ∀ why, c.departure? = some why → c'.departure? = some why) :
    Posts s s' i new c c' where
  connections := hconnections
  accepted := htally.1
  session := hsession
  read := read_kept htally.2.1 hunread
  inbox := hinbox
  written := written_kept htally.2.2.1 hwriter.written
  active := active_kept htally.2.2.2 hdeparted
  events := events_kept h hevents hsession hdeparted hreader fun _ => hwriter.isLost
  sound := sound_kept h hdeparted hreader hwriter

end

theorem departure?_eq {c : Connection} {why : Departure} :
    c.departure? = some why ↔ c.reader = .finished why := by
  unfold Connection.departure?
  cases c.reader <;> simp

theorem departure?_reading {c : Connection} (hreader : c.reader = .reading) :
    c.departure? = none := by
  rw [Connection.departure?, hreader]

/-- The end of a reader that is reading is news, so it takes nothing back. -/
theorem unheard {c : Connection} {P : Departure → Prop} (hnone : c.departure? = none) :
    ∀ why, c.departure? = some why → P why := by
  intro why hwhy
  rw [hnone] at hwhy
  cases hwhy

/-- What a reader leaves unread when it ends is no piece. -/
theorem unread_ends {o : Connection.Options} {c : Connection} {inbox : List Arrival}
    {why : Departure} (h : c.Ends o inbox why) :
    inbox <:+ c.inbox ∧ total Arrival.size inbox = c.unread := by
  cases h with
  | malformed => exact ⟨List.suffix_rfl, rfl⟩
  | oversized => exact ⟨List.suffix_rfl, rfl⟩
  | left _ _ hinbox =>
      rw [Connection.unread, hinbox]
      exact ⟨List.suffix_cons _ _, (Nat.zero_add _).symm⟩
  | reset _ _ hinbox =>
      rw [Connection.unread, hinbox]
      exact ⟨List.suffix_cons _ _, (Nat.zero_add _).symm⟩

/-- The error that ends a connection waits in the outbox; nothing is written yet. -/
theorem finish_quiet (c : Connection) (why : Departure) :
    (c.finish why).inbox = c.inbox ∧ c.writer.Keeps (c.finish why).writer ∧
      (c.finish why).departed = c.departed := by
  unfold Connection.finish
  dsimp only
  split <;> exact ⟨rfl, ⟨rfl, rfl, rfl, rfl⟩, rfl⟩

/-- **Whatever a move takes from one side of an account it puts on the other.** -/
theorem Effect.posts {s s' : Server} {i : Nat} {c : Connection} {m : Move}
    (heffect : Effect s i c m s') (h : c.Sound) : ∃ c', Posts s s' i [] c c' := by
  have hinbox : c.inbox <:+ c.inbox ++ [] := ⟨[], (List.append_nil c.inbox).symm⟩
  cases heffect with
  | refuse hreader hd hx =>
      exact ⟨_, posts_quiet h rfl ⟨rfl, rfl, rfl, rfl⟩ rfl rfl hinbox rfl ⟨rfl, rfl, rfl, rfl⟩ rfl
        (unheard (departure?_reading hreader))⟩
  | drain hreader hd hx hquit =>
      exact ⟨_, posts_quiet h rfl ⟨rfl, rfl, rfl, rfl⟩ rfl rfl hinbox rfl ⟨rfl, rfl, rfl, rfl⟩ rfl
        (unheard (departure?_reading hreader))⟩
  | takeOn hreader hd hx hquit =>
      exact ⟨_, posts_quiet h rfl ⟨rfl, rfl, rfl, rfl⟩ rfl rfl hinbox rfl ⟨rfl, rfl, rfl, rfl⟩ rfl
        (unheard (departure?_reading hreader))⟩
  | takeOnLast hreader hflights =>
      refine ⟨_, posts_quiet h rfl ⟨rfl, rfl, rfl, rfl⟩ rfl rfl hinbox rfl ⟨rfl, rfl, rfl, rfl⟩ rfl
        (unheard ?_)⟩
      rw [Connection.departure?, hreader]
  | @read piece inbox hreader hd hroom hfirst =>
      -- what the tally counts as read is what the inbox loses
      have hunread : piece.length + total Arrival.size inbox = c.unread := by
        rw [Connection.unread, hfirst]
        rfl
      refine ⟨{ c with inbox, buffer := c.buffer ++ piece }, ?_⟩
      exact
        { connections := rfl
          accepted := rfl
          session := rfl
          read := ⟨piece.length, rfl, hunread⟩
          inbox := by
            rw [List.append_nil, hfirst]
            exact List.suffix_cons _ _
          written := written_kept rfl rfl
          active := active_kept rfl rfl
          events := events_kept h rfl rfl rfl (fun _ hwhy => hwhy) fun _ => rfl
          sound := sound_kept h rfl (fun _ hwhy => hwhy) ⟨rfl, rfl, rfl, rfl⟩ }
  | @finish inbox why hreader hends =>
      obtain ⟨hsuffix, hunread⟩ := unread_ends hends
      obtain ⟨hleft, hwriter, hdeparted⟩ := finish_quiet { c with inbox } why
      refine ⟨_, posts_quiet h rfl ⟨rfl, rfl, rfl, rfl⟩ rfl (Connection.session_finish _ _) ?_ ?_
        hwriter hdeparted (unheard (departure?_reading hreader))⟩
      · rw [List.append_nil, hleft]
        exact hsuffix
      · rw [Connection.unread, hleft]
        exact hunread
  | @land ticket flight moment landing hfind houtcome =>
      refine ⟨_, posts_quiet h rfl ⟨rfl, rfl, rfl, rfl⟩ rfl rfl hinbox rfl ⟨rfl, rfl, rfl, rfl⟩ rfl
        fun why hwhy => ?_⟩
      rw [Connection.departure?, (departure?_eq.mp hwhy)]
      rfl
  | @write writer hwriter =>
      -- the tally counts what the writer does, and a writer that goes on has not ended
      obtain ⟨hphase, hle, houtput⟩ := Writer.written_step hwriter
      have hlost := Writer.isLost_step hwriter
      refine ⟨{ c with writer }, ?_⟩
      exact
        { connections := rfl
          accepted := rfl
          session := rfl
          read := read_kept rfl rfl
          inbox := hinbox
          written := ⟨_, rfl, (Nat.add_sub_cancel' hle).symm⟩
          active := active_kept rfl rfl
          events := events_kept h rfl rfl rfl (fun _ hwhy => hwhy) fun _ => hlost
          sound :=
            { departed := fun hgone => absurd (h.departed hgone).2 hphase
              written := by
                intro hreached
                have := h.written (hlost.symm.trans hreached)
                dsimp only
                omega } }
  | release hfinished hflights hsenders =>
      exact ⟨_, posts_quiet h rfl ⟨rfl, rfl, rfl, rfl⟩ rfl rfl hinbox rfl ⟨rfl, rfl, rfl, rfl⟩ rfl
        fun _ hwhy => hwhy⟩
  | @depart why hreader hstopped hdeparted =>
      have hwhy : c.departure? = some why := departure?_eq.mpr hreader
      refine ⟨{ c with departed := true }, ?_⟩
      exact
        { connections := rfl
          accepted := rfl
          session := rfl
          read := read_kept rfl rfl
          inbox := hinbox
          written := written_kept rfl rfl
          active := ⟨1, rfl, by simp [Connection.ongoing, hdeparted]⟩
          events := by
            refine ⟨_, rfl, ?_, fun e he => by rw [List.mem_singleton.mp he]; rfl⟩
            have hsame : ({ c with departed := true } : Connection).departure? = some why := hwhy
            simp [Connection.lifecycle, Connection.ending?, hdeparted, hsame]
          sound :=
            { departed := fun _ => ⟨Option.isSome_iff_exists.mpr ⟨why, hwhy⟩, by
                simpa [Writer.isStopped] using hstopped⟩
              written := h.written } }

/-- A writer that is lost posts nothing: it had not ended, so nothing was heard of an end yet. -/
theorem posts_lose {s s' : Server} {i count : Nat} {c : Connection} (h : c.Sound)
    (hstep : s.loseWriter? i c count = some s') : ∃ c', Posts s s' i [] c c' := by
  obtain ⟨writer, hfail, rfl⟩ := Option.map_eq_some_iff.mp hstep
  obtain ⟨hphase, pending, rfl, -⟩ := Writer.fail?_cases hfail
  have hhere : ¬c.departed = true := fun hgone => hphase (h.departed hgone).2
  refine ⟨{ c with writer := c.writer.lose (pending.take count) }, ?_⟩
  exact
    { connections := rfl
      accepted := rfl
      session := rfl
      read := read_kept rfl rfl
      inbox := ⟨[], (List.append_nil c.inbox).symm⟩
      written := written_kept rfl rfl
      active := active_kept rfl rfl
      events := events_kept h rfl rfl rfl (fun _ hwhy => hwhy) fun hgone => absurd hgone hhere
      sound := ⟨fun hgone => absurd hgone hhere, nofun⟩ }

/-! ## The accounts of a run -/

/-- Whether a client connects. -/
def Happening.isAccept : Happening → Bool
  | .accept => true
  | _ => false

/-- How many bytes arrive. -/
def Happening.size : Happening → Nat
  | .receive _ a => a.size
  | _ => 0

/-- What was heard of a session. -/
def heardOf (s : Server) (session : UInt64) : List Event := s.events.filter (·.session == session)

/-- The accounts of a server after a run. -/
structure Accounts (run : List Happening) (s : Server) : Prop where
  connections : s.connections.length = run.countP Happening.isAccept
  sessions : ∀ i c, s.connections[i]? = some c → c.session = UInt64.ofNat (i + 1)
  sound : ∀ c ∈ s.connections, c.Sound
  accepted : s.tally.accepted = .ofNat s.connections.length
  active : s.tally.active = .ofNat (total Connection.ongoing s.connections)
  /-- What has arrived was counted when it was read, or is unread. -/
  read : ∃ n, s.tally.read = .ofNat n ∧
    n + total Connection.unread s.connections = total Happening.size run
  inbox : ∀ i c, s.connections[i]? = some c → c.inbox <:+ arrived run i
  written : s.tally.written = .ofNat (total (·.writer.written) s.connections)
  known : ∀ e ∈ s.events, ∃ i < s.connections.length, e.session = UInt64.ofNat (i + 1)
  /-- As long as there is a session for every connection, what is heard of one is its lifecycle. -/
  events : s.connections.length < 2 ^ 64 → ∀ i, i + 1 < 2 ^ 64 →
    s.heardOf (.ofNat (i + 1)) = (s.connections[i]?).elim [] Connection.lifecycle

theorem accounts_start (g : Gateway) (o : Connection.Options) (store : Store) :
    Accounts [] (start g o store) where
  connections := rfl
  sessions i c hc := by simp [start] at hc
  sound c hc := by simp [start] at hc
  accepted := rfl
  active := rfl
  read := ⟨0, rfl, rfl⟩
  inbox i c hc := by simp [start] at hc
  written := rfl
  known e he := by simp [start] at he
  events _ i _ := rfl

theorem total_append {α : Type} (f : α → Nat) (l l' : List α) :
    total f (l ++ l') = total f l + total f l' := by
  induction l with
  | nil => exact (Nat.zero_add _).symm
  | cons a l ih =>
      rw [List.cons_append, total, total, ih]
      omega

/-- Sessions are told apart as long as they are not numbered beyond a word. -/
theorem session_injective {i j : Nat} (hi : i + 1 < 2 ^ 64) (hj : j + 1 < 2 ^ 64)
    (h : UInt64.ofNat (i + 1) = UInt64.ofNat (j + 1)) : i = j := by
  have := congrArg UInt64.toNat h
  rw [UInt64.toNat_ofNat_of_lt' hi, UInt64.toNat_ofNat_of_lt' hj] at this
  omega

theorem heardOf_append {s s' : Server} {new : List Event} (h : s'.events = s.events ++ new)
    (session : UInt64) :
    s'.heardOf session = s.heardOf session ++ new.filter (·.session == session) := by
  rw [heardOf, h, List.filter_append]
  rfl

theorem filter_session {new : List Event} {session : UInt64} (h : ∀ e ∈ new, e.session = session) :
    new.filter (·.session == session) = new := by
  refine List.filter_eq_self.mpr fun e he => ?_
  rw [h e he, beq_self_eq_true]

theorem filter_session_other {new : List Event} {session session' : UInt64}
    (h : ∀ e ∈ new, e.session = session) (hne : session ≠ session') :
    new.filter (·.session == session') = [] := by
  refine List.filter_eq_nil_iff.mpr fun e he => ?_
  rw [h e he, beq_iff_eq]
  exact hne

/-- What arrives is unread. -/
theorem posts_receive {s : Server} {i : Nat} {c : Connection} (h : c.Sound)
    (hc : s.connections[i]? = some c) (a : Arrival) :
    Posts s (s.receive i a) i [a] c { c with inbox := c.inbox ++ [a] } := by
  rw [Server.receive, hc]
  refine posts_quiet h rfl ⟨rfl, rfl, rfl, rfl⟩ rfl rfl List.suffix_rfl ?_ ⟨rfl, rfl, rfl, rfl⟩ rfl
    fun _ hwhy => hwhy
  exact total_append _ _ _

namespace Accounts

variable {run : List Happening} {s s' : Server} {i : Nat} {c c' : Connection}

/-- A client connects. -/
theorem accept (h : Accounts run s) : Accounts (run ++ [.accept]) s.accept where
  connections := by
    rw [List.countP_append, ← h.connections]
    exact List.length_append
  sessions := by
    intro i c hc
    rcases getElem?_accept hc with hc | ⟨rfl, rfl⟩
    · exact h.sessions i c hc
    · rfl
  sound := by
    intro c hc
    rcases List.mem_append.mp hc with hc | hc
    · exact h.sound c hc
    · rw [List.mem_singleton.mp hc]
      exact ⟨nofun, fun _ => rfl⟩
  accepted := by
    change s.tally.accepted + 1 = .ofNat (s.connections ++ [_]).length
    rw [h.accepted, List.length_append, UInt64.ofNat_add]
    rfl
  active := by
    change s.tally.active + 1 = .ofNat (total _ (s.connections ++ [_]))
    rw [h.active, total_append, UInt64.ofNat_add]
    rfl
  read := by
    obtain ⟨n, hread, hsum⟩ := h.read
    refine ⟨n, hread, ?_⟩
    change n + total _ (s.connections ++ [_]) = _
    rw [total_append, total_append, ← Nat.add_assoc, hsum]
    rfl
  inbox := by
    intro i c hc
    rw [arrived_concat]
    rcases getElem?_accept hc with hc | ⟨-, rfl⟩
    · rw [show Server.arrived [.accept] i = [] from rfl, List.append_nil]
      exact h.inbox i c hc
    · exact List.nil_suffix
  written := by
    change s.tally.written = .ofNat (total _ (s.connections ++ [_]))
    rw [h.written, total_append]
    rfl
  known := by
    intro e he
    have hlength : s.accept.connections.length = s.connections.length + 1 := List.length_append
    rcases List.mem_append.mp he with he | he
    · obtain ⟨i, hi, hsession⟩ := h.known e he
      exact ⟨i, by omega, hsession⟩
    · rw [List.mem_singleton.mp he]
      exact ⟨s.connections.length, by omega, rfl⟩
  events := by
    intro hlength i hi
    have hgrown : s.accept.connections.length = s.connections.length + 1 := List.length_append
    have hnew : ∀ e ∈ [Event.connected (.ofNat (s.connections.length + 1))],
        e.session = .ofNat (s.connections.length + 1) := by simp [Event.session]
    rw [heardOf_append rfl, h.events (by omega) i hi]
    -- only the new connection is heard of
    by_cases hlast : i = s.connections.length
    · subst hlast
      rw [filter_session hnew, List.getElem?_eq_none (Nat.le_refl _)]
      simp [Server.accept, Connection.lifecycle]
    · have hother : UInt64.ofNat (s.connections.length + 1) ≠ .ofNat (i + 1) := fun heq =>
        hlast (session_injective (by omega) hi heq).symm
      rw [filter_session_other hnew hother, List.append_nil]
      simp only [Server.accept]
      rw [List.getElem?_append]
      split
      · rfl
      · rw [List.getElem?_eq_none (by omega), List.getElem?_eq_none (by simp; omega)]

/-- What is put to the accounts of one connection leaves them in balance. -/
theorem post {more : List Happening} {new : List Arrival} (h : Accounts run s)
    (hc : s.connections[i]? = some c) (hposts : Posts s s' i new c c')
    (hnone : more.countP Happening.isAccept = 0)
    (hsize : total Happening.size more = total Arrival.size new)
    (hown : Server.arrived more i = new) (hothers : ∀ j, j ≠ i → Server.arrived more j = []) :
    Accounts (run ++ more) s' where
  connections := by
    rw [hposts.connections, List.length_set, List.countP_append, h.connections, hnone,
      Nat.add_zero]
  sessions := by
    intro j d hd
    rw [hposts.connections] at hd
    rcases getElem?_set_cases hd with ⟨rfl, rfl⟩ | ⟨-, hd⟩
    · exact hposts.session.trans (h.sessions j c hc)
    · exact h.sessions j d hd
  sound := by
    intro d hd
    rw [hposts.connections] at hd
    rcases List.mem_or_eq_of_mem_set hd with hd | rfl
    · exact h.sound d hd
    · exact hposts.sound
  accepted := by rw [hposts.accepted, hposts.connections, List.length_set, h.accepted]
  active := by
    obtain ⟨n, hactive, hongoing⟩ := hposts.active
    have hset := total_set Connection.ongoing (b := c') hc
    have hsum : total Connection.ongoing s.connections =
        total Connection.ongoing s'.connections + n := by
      rw [hposts.connections]
      omega
    rw [hactive, h.active, hsum, UInt64.ofNat_add, UInt64.add_sub_cancel]
  read := by
    obtain ⟨n, hread, hsum⟩ := h.read
    obtain ⟨k, hmore, hunread⟩ := hposts.read
    have hset := total_set Connection.unread (b := c') hc
    refine ⟨n + k, by rw [hmore, hread, UInt64.ofNat_add], ?_⟩
    rw [hposts.connections, total_append, hsize]
    omega
  inbox := by
    intro j d hd
    rw [hposts.connections] at hd
    rw [arrived_append]
    rcases getElem?_set_cases hd with ⟨rfl, rfl⟩ | ⟨hj, hd⟩
    · rw [hown]
      obtain ⟨before, hbefore⟩ := h.inbox j c hc
      rw [← hbefore, List.append_assoc]
      exact hposts.inbox.trans (List.suffix_append _ _)
    · rw [hothers j hj, List.append_nil]
      exact h.inbox j d hd
  written := by
    obtain ⟨n, hwritten, hgrown⟩ := hposts.written
    have hset := total_set (fun d : Connection => d.writer.written) (b := c') hc
    have hsum : total (fun d : Connection => d.writer.written) s'.connections =
        total (fun d : Connection => d.writer.written) s.connections + n := by
      rw [hposts.connections]
      omega
    rw [hwritten, h.written, hsum, UInt64.ofNat_add]
  known := by
    intro e he
    obtain ⟨heard, hevents, -, hsession⟩ := hposts.events
    rw [hposts.connections, List.length_set]
    rw [hevents] at he
    rcases List.mem_append.mp he with he | he
    · exact h.known e he
    · exact ⟨i, (List.getElem?_eq_some_iff.mp hc).1, (hsession e he).trans (h.sessions i c hc)⟩
  events := by
    intro hlength j hj
    have hi := (List.getElem?_eq_some_iff.mp hc).1
    rw [hposts.connections, List.length_set] at hlength
    obtain ⟨heard, hevents, hlifecycle, hsession⟩ := hposts.events
    rw [h.sessions i c hc] at hsession
    rw [heardOf_append hevents, h.events hlength j hj, hposts.connections]
    -- what is new is about connection `i`, and no other connection has its session
    by_cases hij : i = j
    · subst hij
      rw [filter_session hsession, hc, List.getElem?_set_self hi]
      exact hlifecycle.symm
    · have hother : UInt64.ofNat (i + 1) ≠ .ofNat (j + 1) := fun heq =>
        hij (session_injective (by omega) hj heq)
      rw [filter_session_other hsession hother, List.append_nil, List.getElem?_set_ne hij]

/-- A writer that is lost leaves the accounts in balance. -/
theorem lose (h : Accounts run s) (hc : s.connections[i]? = some c) {count : Nat}
    (hstep : s.loseWriter? i c count = some s') : Accounts run s' := by
  obtain ⟨c', hposts⟩ := posts_lose (h.sound c (List.mem_of_getElem? hc)) hstep
  have haccounts : Accounts (run ++ []) s' := h.post hc hposts rfl rfl rfl fun _ _ => rfl
  rwa [List.append_nil] at haccounts

/-- Whatever happens leaves the accounts in balance. -/
theorem happen (h : Accounts run s) {e : Happening} (hstep : s.happen? e = some s') :
    Accounts (run ++ [e]) s' := by
  cases e with
  | accept =>
      cases hstep
      exact h.accept
  | receive i a =>
      simp only [happen?] at hstep
      split at hstep
      · rename_i hi
        cases hstep
        have hc := List.getElem?_eq_getElem hi
        refine h.post hc (posts_receive (h.sound _ (List.getElem_mem hi)) hc a) rfl rfl ?_ ?_
        · simp [Server.arrived]
        · intro j hj
          simp [Server.arrived, Ne.symm hj]
      · cases hstep
  | move m =>
      obtain ⟨c, hc, heffect⟩ := perform?_effect hstep
      obtain ⟨c', hposts⟩ := heffect.posts (h.sound c (List.mem_of_getElem? hc))
      exact h.post hc hposts rfl rfl rfl fun _ _ => rfl

end Accounts

/-- **In every run the accounts of a server balance.** -/
theorem accounts_run {g : Gateway} {o : Connection.Options} {store : Store}
    {run : List Happening} {s : Server} (hrun : (start g o store).follow? run = some s) :
    Accounts run s :=
  follow?_induction (accounts_start g o store) (fun _ _ _ _ _ h hstep => h.happen hstep) hrun

end Server

end RespGateway
