import RespGateway.Proofs.Balance
import RespGateway.Proofs.Splitting

/-!
# Counters where clients are lost

A write to a client may fail at any time. Its writer is lost then, with the replies that
wait and those that will still be put out; what it has counted stays counted. A run of
incidents is one in which this happens as well.

Nothing that a reader does and nothing that ends depends on a writer. So a server in which
writers are lost has beside it one whose writers have done nothing yet (`Beside`), which
does the same for its readers and commands and has the books that every server has. The
counters of requests are known from there, what is active and what is heard from the
accounts, and what is written from what the writer has made of its items (`Told`).
-/

namespace RespGateway

/-! ## What a writer has told its client -/

namespace Writer

/-- What a writer has told its client of the items that were put in its outbox. Whole items are
counted, from the first on and none after a last one. Of a lost client it is not known how many of
them it has received; it may also have received some of the next one, which is not counted. -/
def Told (w : Writer) (items : List Outgoing) : Prop :=
  ∃ done next, done ++ next <+: untilLast items ∧ w.written = (wire done).length ∧
    (w.isLost = false → w.sent ++ w.buffered = wire done) ∧
    (w.isLost = true → next.length ≤ 1 ∧ w.buffered = [] ∧ w.sent <+: wire (done ++ next))

/-- Where a writer stands whose client may be lost. -/
inductive Follows (w : Writer) (items : List Outgoing) : Prop where
  | reaches : w.isLost = false → w.Carries items → Follows w items
  | lost : w.isLost = true → w.phase = .stopped → w.outbox.isOpen = false → w.Told items →
      Follows w items

theorem Follows.told {w : Writer} {items : List Outgoing} (h : w.Follows items)
    (hwritten : w.isLost = false → w.written = w.output) : w.Told items := by
  cases h with
  | reaches hreached hcarries =>
      obtain ⟨done, hdone, hwrote, -⟩ := hcarries.wrote
      refine ⟨done, [], by rwa [List.append_nil], ?_, fun _ => hwrote.sent_append, ?_⟩
      · rw [hwritten hreached, output, ← hwrote.sent_append, List.length_append]
      · simp [hreached]
  | lost hlost hphase hclosed htold => exact htold

theorem Follows.step {w w' : Writer} {items : List Outgoing} (h : w.Follows items)
    (hstep : w.step? = some w') : w'.Follows items := by
  cases h with
  | reaches hreached hcarries =>
      exact .reaches ((isLost_step hstep).trans hreached) (hcarries.step hstep)
  | lost hlost hphase hclosed htold => exact absurd hphase (written_step hstep).1

theorem Follows.release {w : Writer} {items : List Outgoing} (h : w.Follows items) :
    w.release.Follows items := by
  cases h with
  | reaches hreached hcarries => exact .reaches hreached hcarries.release
  | lost hlost hphase hclosed htold => exact .lost hlost hphase hclosed htold

/-- More items move the first last one only where there is none yet. -/
theorem untilLast_prefix_append (items more : List Outgoing) :
    untilLast items <+: untilLast (items ++ more) := by
  induction items with
  | nil => exact List.nil_prefix
  | cons item items ih =>
      rw [List.cons_append, untilLast, untilLast]
      split
      · exact List.prefix_rfl
      · exact List.prefix_cons_inj item |>.mpr ih

/-- What is put in the outbox of a lost writer is dropped. -/
theorem Follows.offer {w : Writer} {items : List Outgoing} (h : w.Follows items)
    (hsenders : w.hasSenders = true) (item : Outgoing) :
    (w.offer item).Follows (items ++ [item]) := by
  cases h with
  | reaches hreached hcarries => exact .reaches hreached (hcarries.offer hsenders item)
  | lost hlost hphase hclosed htold =>
      have hsame : w.outbox.offer item = w.outbox := by
        simp [Outbox.offer, Outbox.push, hclosed]
      obtain ⟨done, next, hprefix, hwritten, hreached, hgone⟩ := htold
      rw [Writer.offer, hsame]
      exact .lost hlost hphase hclosed ⟨done, next,
        hprefix.trans (untilLast_prefix_append items [item]), hwritten, hreached, hgone⟩

/-- What of a first part is taken is the beginning of the whole. -/
theorem take_prefix_wire {w : Writer} {done : List Outgoing} (h : w.Wrote done) (count : Nat)
    (more : List Outgoing) :
    w.sent ++ (w.buffered ++ wire more).take count <+: wire (done ++ more) := by
  rw [wire_append, ← h.sent_append, List.append_assoc]
  exact List.prefix_append_right_inj w.sent |>.mpr (List.take_prefix _ _)

/-- A writer is lost with what it has counted. -/
theorem Follows.fail {w w' : Writer} {items : List Outgoing} {count : Nat} (h : w.Follows items)
    (hwritten : w.isLost = false → w.written = w.output) (hfail : w.fail? count = some w') :
    w'.Follows items := by
  obtain ⟨hphase, pending, rfl, hpending⟩ := fail?_cases hfail
  cases h with
  | lost _ hstopped => exact absurd hstopped hphase
  | reaches hreached hcarries =>
      obtain ⟨done, hdone, hwrote, hwaiting⟩ := hcarries.wrote
      have hcount : w.written = (wire done).length := by
        rw [hwritten hreached, output, ← hwrote.sent_append, List.length_append]
      refine .lost rfl rfl rfl ?_
      rcases hpending with rfl | ⟨hphase, item, outbox, htake, rfl⟩
      · -- a flush fails: nothing of a next item was to be sent
        have hgone := take_prefix_wire hwrote count []
        rw [show wire [] = [] from rfl, List.append_nil] at hgone
        exact ⟨done, [], by rwa [List.append_nil], hcount, by simp [lose],
          fun _ => ⟨Nat.zero_le _, rfl, hgone⟩⟩
      · obtain ⟨hitems, hnone⟩ := hwaiting hphase
        obtain ⟨rest, hrest⟩ : ∃ rest, w.outbox.waiting = item :: rest := by
          unfold Outbox.take? at htake
          split at htake
          · cases htake
          · rename_i first rest hrest
            cases htake
            exact ⟨rest, hrest⟩
        refine ⟨done, [item], ?_, hcount, by simp [lose], fun _ => ⟨Nat.le_refl _, rfl, ?_⟩⟩
        · rw [hitems, hrest, untilLast_append hnone, untilLast]
          refine List.prefix_append_right_inj done |>.mpr ?_
          split
          · exact List.prefix_rfl
          · exact ⟨untilLast rest, rfl⟩
        · have hgone := take_prefix_wire hwrote count [item]
          rwa [wire_singleton] at hgone

/-- A writer that has sent nothing yet has all items before it. -/
theorem Carries.all_waiting {w : Writer} {items : List Outgoing} (h : w.Carries items)
    (hphase : w.phase = .waiting) (hsent : w.sent = []) (hbuffered : w.buffered = []) :
    items = w.outbox.waiting := by
  obtain ⟨done, -, hwrote, hwaiting⟩ := h.wrote
  have hwire := hwrote.sent_append
  rw [hsent, hbuffered, List.append_nil] at hwire
  have hlength := Reply.length_le_encode (done.map Outgoing.content)
  rw [List.flatMap_map, show done.flatMap (fun item => item.content.encode) = [] from hwire.symm,
    List.length_map] at hlength
  rw [(hwaiting hphase).1, List.length_eq_zero_iff.mp (Nat.le_zero.mp hlength), List.nil_append]

end Writer

/-! ## Beside a server -/

/-- The connection with a writer that has done nothing yet. -/
def Connection.unwritten (c : Connection) (items : List Outgoing) : Connection :=
  { c with
    writer := { outbox := { session := c.session, waiting := items } }
    departed := false }

theorem Connection.Ends.unwritten {o : Connection.Options} {c : Connection}
    {inbox : List Arrival} {why : Departure} (h : c.Ends o inbox why) (items : List Outgoing) :
    (c.unwritten items).Ends o inbox why := by
  cases h with
  | malformed hd => exact .malformed hd
  | oversized hd hfull => exact .oversized hd hfull
  | left hd hroom hinbox => exact .left hd hroom hinbox
  | reset hd hroom hinbox => exact .reset hd hroom hinbox

namespace Server

/-- What a connection has beside it whose writer may be lost. -/
structure Lags (c : Connection) (items : List Outgoing) : Prop where
  follows : c.writer.Follows items
  released : c.writer.hasSenders = false → c.isFinished = true ∧ c.flights = []

/-- The second server does for readers and commands what the first does, and its writers have done
nothing yet. -/
structure Beside (s s₀ : Server) : Prop where
  gateway : s₀.gateway = s.gateway
  options : s₀.options = s.options
  work : s₀.work = s.work
  clock : s₀.clock = s.clock
  processed : s₀.tally.processed = s.tally.processed
  rejected : s₀.tally.rejected = s.tally.rejected
  length : s₀.connections.length = s.connections.length
  connections : ∀ (i : Nat) (c : Connection), s.connections[i]? = some c →
    ∃ items, s₀.connections[i]? = some (c.unwritten items) ∧ Lags c items

theorem beside_start (g : Gateway) (o : Connection.Options) (store : Store) :
    Beside (start g o store) (start g o store) where
  gateway := rfl
  options := rfl
  work := rfl
  clock := rfl
  processed := rfl
  rejected := rfl
  length := rfl
  connections i c hc := by simp [start] at hc

namespace Lags

variable {c : Connection} {items : List Outgoing}

theorem hasSenders (h : Lags c items) (hopen : c.isFinished = false ∨ c.flights ≠ []) :
    c.writer.hasSenders = true := by
  cases hsenders : c.writer.hasSenders with
  | true => rfl
  | false =>
      obtain ⟨hfinished, hflights⟩ := h.released hsenders
      rcases hopen with hopen | hopen
      · rw [hfinished] at hopen
        cases hopen
      · exact absurd hflights hopen

/-- As long as somebody may put something in, the rest of the connection may change. -/
theorem keep {c' : Connection} (h : Lags c items) (hwriter : c'.writer = c.writer)
    (hsenders : c.writer.hasSenders = true) : Lags c' items := by
  refine ⟨hwriter ▸ h.follows, fun hnone => ?_⟩
  rw [hwriter, hsenders] at hnone
  cases hnone

theorem offer {c' : Connection} {item : Outgoing} (h : Lags c items)
    (hwriter : c'.writer = c.writer.offer item) (hsenders : c.writer.hasSenders = true) :
    Lags c' (items ++ [item]) := by
  refine ⟨hwriter ▸ h.follows.offer hsenders item, fun hnone => ?_⟩
  rw [hwriter, Writer.offer, hsenders] at hnone
  cases hnone

end Lags

namespace Beside

variable {s s' s₀ s₀' : Server} {i : Nat} {c c' : Connection}

/-- One connection takes the place of another on both sides. -/
theorem turn (h : Beside s s₀) (hc : s.connections[i]? = some c) (items : List Outgoing)
    (hconnections : s'.connections = s.connections.set i c')
    (hconnections₀ : s₀'.connections = s₀.connections.set i (c'.unwritten items))
    (hlags : Lags c' items)
    (hsame : s₀'.gateway = s'.gateway ∧ s₀'.options = s'.options ∧ s₀'.work = s'.work ∧
      s₀'.clock = s'.clock)
    (htally : s₀'.tally.processed = s'.tally.processed ∧
      s₀'.tally.rejected = s'.tally.rejected) : Beside s' s₀' where
  gateway := hsame.1
  options := hsame.2.1
  work := hsame.2.2.1
  clock := hsame.2.2.2
  processed := htally.1
  rejected := htally.2
  length := by rw [hconnections, hconnections₀, List.length_set, List.length_set, h.length]
  connections := by
    intro j d hd
    rw [hconnections] at hd
    rw [hconnections₀]
    rcases getElem?_set_cases hd with ⟨rfl, rfl⟩ | ⟨hj, hd⟩
    · have hi : j < s₀.connections.length := by
        rw [h.length]
        exact (List.getElem?_eq_some_iff.mp hc).1
      exact ⟨items, List.getElem?_set_self hi, hlags⟩
    · rw [List.getElem?_set_ne (Ne.symm hj)]
      exact h.connections j d hd

/-- What only the writer of a connection does is not done beside it. -/
theorem stay (h : Beside s s₀) (hc : s.connections[i]? = some c)
    (hconnections : s'.connections = s.connections.set i c')
    (hunwritten : ∀ items, c'.unwritten items = c.unwritten items)
    (hlags : ∀ items, Lags c items → Lags c' items)
    (hsame : s'.gateway = s.gateway ∧ s'.options = s.options ∧ s'.work = s.work ∧
      s'.clock = s.clock)
    (htally : s'.tally.processed = s.tally.processed ∧
      s'.tally.rejected = s.tally.rejected) : Beside s' s₀ := by
  obtain ⟨items, hc₀, hc'⟩ := h.connections i c hc
  refine h.turn hc items hconnections ?_ (hlags items hc') ?_ ?_
  · obtain ⟨hi, hsame₀⟩ := List.getElem?_eq_some_iff.mp hc₀
    rw [hunwritten, ← hsame₀, List.set_getElem_self]
  · exact ⟨h.gateway.trans hsame.1.symm, h.options.trans hsame.2.1.symm,
      h.work.trans hsame.2.2.1.symm, h.clock.trans hsame.2.2.2.symm⟩
  · exact ⟨h.processed.trans htally.1.symm, h.rejected.trans htally.2.symm⟩

/-- What a reader does, and a command that ends, has the same effect beside the server. -/
theorem effect (h : Beside s s₀) {m : Move} (hc : s.connections[i]? = some c)
    (heffect : Effect s i c m s') (hm : m = .reader i ∨ ∃ ticket, m = .land i ticket) :
    ∃ c₀ s₀', s₀.connections[i]? = some c₀ ∧ Effect s₀ i c₀ m s₀' ∧ Beside s' s₀' := by
  obtain ⟨items, hc₀, hlags⟩ := h.connections i c hc
  refine ⟨c.unwritten items, ?_⟩
  have hsame := And.intro h.gateway (And.intro h.options (And.intro h.work h.clock))
  have hreading : c.reader = .reading → c.writer.hasSenders = true := by
    intro hreader
    exact hlags.hasSenders (Or.inl (by rw [Connection.isFinished, hreader]))
  have htakeOn : ∀ (d : Connection) (x : Exchange), d.writer = c.writer →
      c.writer.hasSenders = true →
      Beside (s.takeOn i d x) (s₀.takeOn i (d.unwritten items) x) := by
    intro d x hwriter hsenders
    have hlaunch : s₀.work.launch s₀.gateway s₀.clock x = s.work.launch s.gateway s.clock x := by
      rw [h.work, h.gateway, h.clock]
    refine h.turn hc items rfl ?_ (hlags.keep hwriter hsenders)
      ⟨h.gateway, h.options, ?_, h.clock⟩ ⟨?_, h.rejected⟩
    · simp only [takeOn, withConnection, hlaunch, h.options]
      rfl
    · simp only [takeOn, hlaunch]
    · simp only [takeOn, Tally.commandProcessed, h.processed]
  cases heffect with
  | @refuse arguments consumed why hreader hd hx =>
      refine ⟨_, hc₀, .refuse hreader hd hx, ?_⟩
      refine h.turn hc (items ++ [.rejection why.reply]) rfl rfl
        (hlags.offer rfl (hreading hreader)) hsame ⟨h.processed, ?_⟩
      simp only [Tally.commandRejected, h.rejected]
  | drain hreader hd hx hquit =>
      exact ⟨_, hc₀, .drain hreader hd hx hquit,
        h.turn hc items rfl rfl (hlags.keep rfl (hreading hreader)) hsame
          ⟨h.processed, h.rejected⟩⟩
  | takeOn hreader hd hx hquit =>
      exact ⟨_, hc₀, .takeOn hreader hd hx hquit, htakeOn _ _ rfl (hreading hreader)⟩
  | takeOnLast hreader hflights =>
      have hsenders := hlags.hasSenders (Or.inl (by rw [Connection.isFinished, hreader]))
      exact ⟨_, hc₀, .takeOnLast hreader hflights, htakeOn _ _ rfl hsenders⟩
  | read hreader hd hroom hinbox =>
      rw [← h.options] at hroom
      exact ⟨_, hc₀, .read hreader hd hroom hinbox,
        h.turn hc items rfl rfl (hlags.keep rfl (hreading hreader)) hsame
          ⟨h.processed, h.rejected⟩⟩
  | @finish inbox why hreader hends =>
      rw [← h.options] at hends
      refine ⟨_, hc₀, .finish hreader (hends.unwritten items), ?_⟩
      cases htold : why.told with
      | none =>
          refine h.turn hc items rfl ?_ ?_ hsame ⟨h.processed, h.rejected⟩
          · rw [Connection.finish_silent htold, Connection.finish_silent htold]
            rfl
          · rw [Connection.finish_silent htold]
            exact hlags.keep rfl (hreading hreader)
      | some r =>
          refine h.turn hc (items ++ [.rejection r]) rfl ?_ ?_ hsame
            ⟨h.processed, h.rejected⟩
          · rw [Connection.finish_told htold, Connection.finish_told htold]
            rfl
          · rw [Connection.finish_told htold]
            exact hlags.offer rfl (hreading hreader)
  | @land ticket flight moment landing hfind houtcome =>
      refine ⟨_, hc₀, .land hfind houtcome, ?_⟩
      have hsenders := hlags.hasSenders (Or.inr (by
        intro hnone
        rw [hnone] at hfind
        cases hfind))
      have hclock : max s₀.clock moment.time = max s.clock moment.time := by rw [h.clock]
      rw [h.work]
      -- a command that ends either puts its reply out or puts out nothing
      cases hreply : (landing.land s.work.store).1 with
      | error twice =>
          have hdeliver : ∀ o : Outbox, s.work.deliver landing o =
              (o, { s.work with store := (landing.land s.work.store).2 }) := by
            intro o
            simp only [Gateway.State.deliver, Gateway.State.land, hreply]
          refine h.turn hc items rfl ?_ ?_ ⟨h.gateway, h.options, ?_, hclock⟩
            ⟨h.processed, h.rejected⟩
          · simp only [hdeliver]
            rfl
          · simp only [hdeliver]
            exact hlags.keep rfl hsenders
          · simp only [hdeliver]
      | ok y =>
          have hdeliver : ∀ o : Outbox, s.work.deliver landing o =
              (o.offer (.reply y), { s.work with store := (landing.land s.work.store).2 }) := by
            intro o
            simp only [Gateway.State.deliver, Gateway.State.land, hreply]
          refine h.turn hc (items ++ [.reply y]) rfl ?_ ?_ ⟨h.gateway, h.options, ?_, hclock⟩
            ⟨h.processed, h.rejected⟩
          · simp only [hdeliver]
            rfl
          · simp only [hdeliver]
            exact hlags.offer rfl hsenders
          · simp only [hdeliver]
  | write => simp at hm
  | release => simp at hm
  | depart => simp at hm

/-- A client connects. -/
theorem accept (h : Beside s s₀) : Beside s.accept s₀.accept where
  gateway := h.gateway
  options := h.options
  work := h.work
  clock := h.clock
  processed := h.processed
  rejected := h.rejected
  length := by simp [Server.accept, h.length]
  connections := by
    intro i c hc
    have hlast : s₀.accept.connections =
        s₀.connections ++ [{ session := UInt64.ofNat (s.connections.length + 1) }] := by
      rw [← h.length]
      rfl
    rw [hlast]
    rcases getElem?_accept hc with hc | ⟨rfl, rfl⟩
    · obtain ⟨items, hc₀, hlags⟩ := h.connections i c hc
      refine ⟨items, ?_, hlags⟩
      rwa [List.getElem?_append_left (List.getElem?_eq_some_iff.mp hc₀).1]
    · refine ⟨[], ?_, .reaches rfl (Writer.carries_init _), by simp [Writer.ofSession]⟩
      rw [← h.length, List.getElem?_concat_length]
      rfl

/-- Something reaches the server from a client. -/
theorem receive (h : Beside s s₀) (hc : s.connections[i]? = some c) (a : Arrival) :
    Beside (s.receive i a) (s₀.receive i a) := by
  obtain ⟨items, hc₀, hlags⟩ := h.connections i c hc
  rw [Server.receive, Server.receive, hc, hc₀]
  exact h.turn hc items rfl rfl ⟨hlags.follows, hlags.released⟩
    ⟨h.gateway, h.options, h.work, h.clock⟩ ⟨h.processed, h.rejected⟩

end Beside

/-! ## Runs of incidents -/

/-- Something that happens to a server whose clients may be lost. -/
inductive Incident where
  | happen (h : Happening)
  /-- A write to a client fails after some bytes. -/
  | lose (i count : Nat)

/-- Carries out an incident, if it can happen. -/
def meet? (s : Server) : Incident → Option Server
  | .happen h => s.happen? h
  | .lose i count => s.connections[i]?.bind (s.loseWriter? i · count)

/-- What becomes of a server in a run of incidents. -/
def endure? (s : Server) (run : List Incident) : Option Server := run.foldlM meet? s

/-- What happens in a run besides the losses. -/
def happenings (run : List Incident) : List Happening :=
  run.filterMap fun
    | .happen h => some h
    | .lose _ _ => none

theorem happenings_append (run run' : List Incident) :
    happenings (run ++ run') = happenings run ++ happenings run' := List.filterMap_append

/-- The accounts of a server whose clients may be lost, and the books of the server beside it. -/
structure Survey (g : Gateway) (o : Connection.Options) (store : Store) (run : List Happening)
    (ledger : List Taken) (history : List (Nat × Delivery)) (s : Server) : Prop where
  accounts : Accounts run s
  books : ∃ s₀, Beside s s₀ ∧ Books g o (arrived run) ledger history s₀
  replays : Replays g store history s.work.store

theorem survey_start (g : Gateway) (o : Connection.Options) (store : Store) :
    Survey g o store [] [] [] (start g o store) where
  accounts := accounts_start g o store
  books := ⟨_, beside_start g o store, books_start g o store⟩
  replays := .nil _

section

variable {g : Gateway} {o : Connection.Options} {store : Store} {run : List Happening}
  {ledger : List Taken} {history : List (Nat × Delivery)} {s s' : Server} {i : Nat}
  {c : Connection}

theorem arrived_nothing (run : List Happening) {more : List Happening}
    (h : arrived more = fun _ => []) : arrived (run ++ more) = arrived run := by
  funext j
  rw [arrived_append, h, List.append_nil]

/-- What is done on both sides is entered in the books. -/
theorem Survey.enter (h : Survey g o store run ledger history s) {m : Move}
    (hc : s.connections[i]? = some c) (heffect : Effect s i c m s')
    (hm : m = .reader i ∨ ∃ ticket, m = .land i ticket)
    (haccounts : Accounts (run ++ [.move m]) s') :
    ∃ ledger' history', Survey g o store (run ++ [.move m]) ledger' history' s' := by
  obtain ⟨s₀, hbeside, hbooks⟩ := h.books
  obtain ⟨c₀, s₀', hc₀, heffect₀, hbeside'⟩ := hbeside.effect hc heffect hm
  obtain ⟨new, put, hbooks', hreplays⟩ := hbooks.effect hc₀ heffect₀
  rw [hbeside.work, hbeside'.work] at hreplays
  refine ⟨ledger ++ new, history ++ put.map (Prod.mk i), haccounts, ⟨s₀', hbeside', ?_⟩,
    h.replays.append hreplays⟩
  rwa [arrived_nothing run rfl]

/-- What only a writer does is not. -/
theorem Survey.pass (h : Survey g o store run ledger history s) {more : List Happening}
    {c' : Connection} (hc : s.connections[i]? = some c)
    (hconnections : s'.connections = s.connections.set i c')
    (hunwritten : ∀ items, c'.unwritten items = c.unwritten items)
    (hlags : ∀ items, Lags c items → Lags c' items)
    (hsame : s'.gateway = s.gateway ∧ s'.options = s.options ∧ s'.work = s.work ∧
      s'.clock = s.clock)
    (htally : s'.tally.processed = s.tally.processed ∧
      s'.tally.rejected = s.tally.rejected)
    (harrived : arrived more = fun _ => []) (haccounts : Accounts (run ++ more) s') :
    Survey g o store (run ++ more) ledger history s' := by
  obtain ⟨s₀, hbeside, hbooks⟩ := h.books
  refine ⟨haccounts, ⟨s₀, hbeside.stay hc hconnections hunwritten hlags hsame htally, ?_⟩, ?_⟩
  · rwa [arrived_nothing run harrived]
  · rw [hsame.2.2.1]
    exact h.replays

theorem Survey.move (h : Survey g o store run ledger history s) {m : Move}
    (hstep : s.perform? m = some s') :
    ∃ ledger' history', Survey g o store (run ++ [.move m]) ledger' history' s' := by
  have haccounts : Accounts (run ++ [.move m]) s' := h.accounts.happen hstep
  obtain ⟨c, hc, heffect⟩ := perform?_effect hstep
  have hread : m = .reader m.connection ∨ (∃ ticket, m = .land m.connection ticket) →
      ∃ ledger' history', Survey g o store (run ++ [.move m]) ledger' history' s' :=
    fun hm => h.enter hc heffect hm haccounts
  cases m with
  | reader i => exact hread (Or.inl rfl)
  | land i ticket => exact hread (Or.inr ⟨ticket, rfl⟩)
  | writer i =>
      refine ⟨ledger, history, ?_⟩
      cases heffect with
      | write hwriter =>
          refine h.pass hc rfl (fun _ => rfl) (fun items hlags => ?_) ⟨rfl, rfl, rfl, rfl⟩
            ⟨rfl, rfl⟩ rfl haccounts
          exact ⟨hlags.follows.step hwriter, fun hnone =>
            hlags.released ((Writer.hasSenders_step hwriter).symm.trans hnone)⟩
  | release i =>
      refine ⟨ledger, history, ?_⟩
      cases heffect with
      | release hfinished hflights hsenders =>
          exact h.pass hc rfl (fun _ => rfl)
            (fun items hlags => ⟨hlags.follows.release, fun _ => ⟨hfinished, hflights⟩⟩)
            ⟨rfl, rfl, rfl, rfl⟩ ⟨rfl, rfl⟩ rfl haccounts
  | depart i =>
      refine ⟨ledger, history, ?_⟩
      cases heffect with
      | depart hreader hstopped hdeparted =>
          exact h.pass hc rfl (fun _ => rfl)
            (fun items hlags => ⟨hlags.follows, hlags.released⟩)
            ⟨rfl, rfl, rfl, rfl⟩ ⟨rfl, rfl⟩ rfl haccounts

/-- Whatever happens is surveyed. -/
theorem Survey.happen (h : Survey g o store run ledger history s) {e : Happening}
    (hstep : s.happen? e = some s') :
    ∃ ledger' history', Survey g o store (run ++ [e]) ledger' history' s' := by
  obtain ⟨s₀, hbeside, hbooks⟩ := h.books
  have haccounts := h.accounts.happen hstep
  cases e with
  | accept =>
      cases hstep
      refine ⟨ledger, history, haccounts, ⟨s₀.accept, hbeside.accept, ?_⟩, h.replays⟩
      rw [arrived_nothing run rfl]
      exact hbooks.accept
  | receive i a =>
      simp only [happen?] at hstep
      split at hstep
      · rename_i hi
        cases hstep
        have hc := List.getElem?_eq_getElem hi
        have hbooks' := hbooks.receive (hbeside.length.symm ▸ hi) a
        refine ⟨ledger, history, haccounts, ⟨_, hbeside.receive hc a, ?_⟩, ?_⟩
        · rwa [show arrived (run ++ [.receive i a]) = fun j => arrived run j ++
            Server.arrived [.receive i a] j from funext (arrived_append run _)]
        · rw [Server.receive, hc]
          exact h.replays
      · cases hstep
  | move m => exact h.move hstep

/-- A loss is surveyed. -/
theorem Survey.lose (h : Survey g o store run ledger history s) {count : Nat}
    (hc : s.connections[i]? = some c) (hstep : s.loseWriter? i c count = some s') :
    Survey g o store run ledger history s' := by
  have haccounts : Accounts (run ++ []) s' := by
    rw [List.append_nil]
    exact h.accounts.lose hc hstep
  obtain ⟨writer, hfail, rfl⟩ := Option.map_eq_some_iff.mp hstep
  have hwritten := (h.accounts.sound c (List.mem_of_getElem? hc)).written
  have hlags : ∀ items, Lags c items → Lags { c with writer } items := by
    intro items hlags
    refine ⟨hlags.follows.fail hwritten hfail, fun hnone => hlags.released ?_⟩
    obtain ⟨-, pending, rfl, -⟩ := Writer.fail?_cases hfail
    exact hnone
  have hsurvey : Survey g o store (run ++ []) ledger history
      (s.withConnection i { c with writer }) :=
    h.pass hc rfl (fun _ => rfl) hlags ⟨rfl, rfl, rfl, rfl⟩ ⟨rfl, rfl⟩ rfl haccounts
  rwa [List.append_nil] at hsurvey

end

/-- **Every run of incidents is surveyed.** -/
theorem survey_run {g : Gateway} {o : Connection.Options} {store : Store} {run : List Incident}
    {s : Server} (hrun : (start g o store).endure? run = some s) :
    ∃ ledger history, Survey g o store (happenings run) ledger history s := by
  refine foldlM_induction (P := fun run s =>
    ∃ ledger history, Survey g o store (happenings run) ledger history s) ?_ ?_ hrun
  · exact ⟨[], [], survey_start g o store⟩
  · rintro run s e s' - ⟨ledger, history, h⟩ hstep
    rw [happenings_append]
    cases e with
    | happen e => exact h.happen hstep
    | lose i count =>
        obtain ⟨c, hc, hlose⟩ := Option.bind_eq_some_iff.mp hstep
        refine ⟨ledger, history, ?_⟩
        change Survey g o store (happenings run ++ []) ledger history s'
        rw [List.append_nil]
        exact h.lose hc hlose

/-! ## The audit -/

/-- No move loses a client. -/
theorem Effect.isLost {s s' : Server} {i : Nat} {c : Connection} {m : Move}
    (h : Effect s i c m s') :
    ∃ c', s'.connections = s.connections.set i c' ∧ c'.writer.isLost = c.writer.isLost := by
  cases h with
  | finish hreader hends => exact ⟨_, rfl, (finish_quiet _ _).2.1.isLost⟩
  | write hwriter => exact ⟨_, rfl, Writer.isLost_step hwriter⟩
  | refuse hreader hd hx => exact ⟨_, rfl, rfl⟩
  | drain hreader hd hx hquit => exact ⟨_, rfl, rfl⟩
  | takeOn hreader hd hx hquit => exact ⟨_, rfl, rfl⟩
  | takeOnLast hreader hflights => exact ⟨_, rfl, rfl⟩
  | read hreader hd hroom hinbox => exact ⟨_, rfl, rfl⟩
  | land hfind houtcome => exact ⟨_, rfl, rfl⟩
  | release hfinished hflights hsenders => exact ⟨_, rfl, rfl⟩
  | depart hreader hstopped hdeparted => exact ⟨_, rfl, rfl⟩

/-- A client is lost where one of its writes has failed, and only there. -/
theorem lost_run {g : Gateway} {o : Connection.Options} {store : Store} {run : List Incident}
    {s : Server} (hrun : (start g o store).endure? run = some s) :
    ∀ (i : Nat) (c : Connection), s.connections[i]? = some c → c.writer.isLost = true →
      ∃ count, Incident.lose i count ∈ run := by
  refine foldlM_induction (P := fun run s => ∀ (i : Nat) (c : Connection),
    s.connections[i]? = some c → c.writer.isLost = true →
      ∃ count, Incident.lose i count ∈ run) ?_ ?_ hrun
  · intro i c hc
    simp [start] at hc
  · rintro run s e s' - ih hstep i c hc hlost
    -- what was lost before is lost still
    have hbefore : (∃ count, Incident.lose i count ∈ run) →
        ∃ count, Incident.lose i count ∈ run ++ [e] := by
      intro hearlier
      obtain ⟨count, hmem⟩ := hearlier
      exact ⟨count, List.mem_append_left _ hmem⟩
    have hset : ∀ {j : Nat} {d d' : Connection}, s.connections[j]? = some d →
        s'.connections = s.connections.set j d' → d'.writer.isLost = d.writer.isLost →
        ∃ count, Incident.lose i count ∈ run ++ [e] := by
      intro j d d' hd hconnections hsame
      rw [hconnections] at hc
      rcases getElem?_set_cases hc with ⟨rfl, rfl⟩ | ⟨-, hc⟩
      · exact hbefore (ih i d hd (hsame ▸ hlost))
      · exact hbefore (ih i c hc hlost)
    cases e with
    | lose j count =>
        obtain ⟨d, hd, hlose⟩ := Option.bind_eq_some_iff.mp hstep
        obtain ⟨writer, -, rfl⟩ := Option.map_eq_some_iff.mp hlose
        rcases getElem?_set_cases hc with ⟨rfl, -⟩ | ⟨-, hc⟩
        · exact ⟨count, List.mem_append_right _ (List.mem_singleton.mpr rfl)⟩
        · exact hbefore (ih i c hc hlost)
    | happen e =>
        cases e with
        | accept =>
            cases hstep
            rcases getElem?_accept hc with hc | ⟨-, rfl⟩
            · exact hbefore (ih i c hc hlost)
            · cases hlost
        | receive j a =>
            simp only [meet?, happen?] at hstep
            split at hstep
            · rename_i hj
              cases hstep
              have hd := List.getElem?_eq_getElem hj
              have hconnections : (s.receive j a).connections = s.connections.set j
                  { s.connections[j] with inbox := s.connections[j].inbox ++ [a] } := by
                rw [Server.receive, hd]
                rfl
              exact hset hd hconnections rfl
            · cases hstep
        | move m =>
            obtain ⟨d, hd, heffect⟩ := perform?_effect hstep
            obtain ⟨d', hconnections, hsame⟩ := heffect.isLost
            exact hset hd hconnections hsame

/-- What the counters of a server tell after a run, and what an observer has heard. -/
structure Audit (o : Connection.Options) (run : List Incident) (history : List (Nat × Delivery))
    (s : Server) : Prop where
  accounts : Accounts (happenings run) s
  /-- With a number for every connection the count of those that are active is exact. -/
  active : s.connections.length < 2 ^ 64 →
    s.tally.active.toNat = s.connections.countP (!·.departed)
  /-- It is never taken below zero, where it would jump to the largest number. -/
  falls : s.connections.length < 2 ^ 64 → ∀ e s', s.meet? e = some s' → e ≠ .happen .accept →
    s'.tally.active ≤ s.tally.active
  processed : s.tally.processed = .ofNat s.work.tickets
  calls : s.work.calls.length ≤ s.work.tickets
  lost : ∀ (i : Nat) (c : Connection), s.connections[i]? = some c → c.writer.isLost = true →
    ∃ count, Incident.lose i count ∈ run
  /-- What is counted as written are the replies that were put out, whole and in order, as far as
  they were written. -/
  told : ∀ (i : Nat) (c : Connection), s.connections[i]? = some c →
    c.writer.Told ((putOut i history).map Delivery.item)
  balance : s.AtRest → Balance o (happenings run) s
  /-- At rest, to a client that was not lost, this is all that was put out for it up to the reply
  to a `QUIT`. -/
  sent : s.AtRest → ∀ (i : Nat) (c : Connection), s.connections[i]? = some c →
    c.writer.isLost = false →
      c.writer.sent = wire (untilLast ((putOut i history).map Delivery.item))

section

variable {g : Gateway} {o : Connection.Options} {store : Store} {run : List Happening}
  {ledger : List Taken} {history : List (Nat × Delivery)} {s s' : Server}

/-- Where the writer of a connection stands with what was put out for its client. -/
theorem Survey.follows (h : Survey g o store run ledger history s) {i : Nat} {c : Connection}
    (hc : s.connections[i]? = some c) :
    c.writer.Follows ((putOut i history).map Delivery.item) := by
  obtain ⟨s₀, hbeside, hbooks⟩ := h.books
  obtain ⟨items, hc₀, hlags⟩ := hbeside.connections i c hc
  obtain ⟨-, past, underway, hst⟩ := hbooks.connections i _ hc₀
  -- beside the server all that was put out still waits
  rw [hst.carried.all_waiting rfl rfl rfl]
  exact hlags.follows

/-- A writer with nothing to do has sent what was put out for its client, if it was not lost. -/
theorem Survey.sent (h : Survey g o store run ledger history s) (hrest : s.AtRest) {i : Nat}
    {c : Connection} (hc : s.connections[i]? = some c) (hreached : c.writer.isLost = false) :
    c.writer.sent = wire (untilLast ((putOut i history).map Delivery.item)) ∧
      c.writer.written = c.writer.sent.length := by
  have hwritten := (h.accounts.sound c (List.mem_of_getElem? hc)).written hreached
  have hstuck := Writer.stuck ((hrest.still i).step? hc)
  cases h.follows hc with
  | lost hlost =>
      rw [hreached] at hlost
      cases hlost
  | reaches _ hcarries =>
      rcases hstuck with hstopped | ⟨hwaiting, hempty, -⟩
      · exact ⟨hcarries.sent_of_stopped hstopped,
          hcarries.written_of_idle (Or.inl hstopped) hwritten⟩
      · obtain ⟨hsent, hnone⟩ := hcarries.sent_of_waiting hwaiting hempty
        refine ⟨?_, hcarries.written_of_idle (Or.inr ⟨hwaiting, hempty⟩) hwritten⟩
        rw [untilLast_of_none hnone]
        exact hsent

theorem Survey.balance (h : Survey g o store run ledger history s) (hends : g.AlwaysEnds)
    (hrest : s.AtRest) : Balance o run s := by
  obtain ⟨s₀, hbeside, hbooks⟩ := h.books
  refine h.accounts.balance hbooks hbeside.length hbeside.work hbeside.processed
    hbeside.rejected (fun i c hc => ?_) fun c hmem hreached => ?_
  · obtain ⟨items, hc₀, -⟩ := hbeside.connections i c hc
    obtain ⟨-, past, underway, hst⟩ := hbooks.connections i _ hc₀
    exact (hrest.still i).known hends (hbeside.options.symm.trans hbooks.options) hc
      (h.accounts.sound c (List.mem_of_getElem? hc)) hst
  · obtain ⟨i, hc⟩ := List.mem_iff_getElem?.mp hmem
    exact (h.sent hrest hc hreached).2

/-- Only a new connection adds to those that are active. -/
theorem Accounts.meet_falls (h : Accounts run s) {e : Incident} (hstep : s.meet? e = some s')
    (haccept : e ≠ .happen .accept) (hlength : s.connections.length < 2 ^ 64) :
    s'.tally.active ≤ s.tally.active := by
  cases e with
  | lose i count =>
      obtain ⟨c, hc, hlose⟩ := Option.bind_eq_some_iff.mp hstep
      obtain ⟨c', hposts⟩ := posts_lose (h.sound c (List.mem_of_getElem? hc)) hlose
      exact h.active_falls (h.lose hc hlose) hc hposts hlength
  | happen e =>
      have h' := h.happen hstep
      cases e with
      | accept => exact absurd rfl haccept
      | receive i a =>
          simp only [meet?, happen?] at hstep
          split at hstep
          · rename_i hi
            cases hstep
            have hc := List.getElem?_eq_getElem hi
            exact h.active_falls h' hc (posts_receive (h.sound _ (List.getElem_mem hi)) hc a)
              hlength
          · cases hstep
      | move m =>
          obtain ⟨c, hc, heffect⟩ := perform?_effect hstep
          obtain ⟨c', hposts⟩ := heffect.posts (h.sound c (List.mem_of_getElem? hc))
          exact h.active_falls h' hc hposts hlength

end

/-- **The counters of a server are exact in every run**, in either mode, for all callees whose calls
end or are given up, for all clients at once, in every order of moves and wherever clients are
lost. What is counted as written are the replies that the writers have written: of a lost client
it may not have received the last of them. The trouble that is heard of a connection is that of
its reader, or else that its client was lost. -/
theorem run_audit {g : Gateway} {o : Connection.Options} {store : Store} {run : List Incident}
    {s : Server} (hends : g.AlwaysEnds) (hrun : (start g o store).endure? run = some s) :
    ∃ history, Replays g store history s.work.store ∧ Audit o run history s := by
  obtain ⟨ledger, history, hsurvey⟩ := survey_run hrun
  obtain ⟨s₀, hbeside, hbooks⟩ := hsurvey.books
  have haccounts := hsurvey.accounts
  refine ⟨history, hsurvey.replays, ?_⟩
  exact
    { accounts := haccounts
      active := haccounts.active_toNat
      falls := fun hlength e s' hstep haccept => haccounts.meet_falls hstep haccept hlength
      processed := by
        rw [← hbeside.processed, hbooks.processed, hbooks.length_ledger, hbeside.work]
      calls := by
        rw [← hbeside.work, hbooks.calls, ← hbooks.length_ledger]
        exact length_calls g ledger
      lost := lost_run hrun
      told := fun i c hc => (hsurvey.follows hc).told
        (haccounts.sound c (List.mem_of_getElem? hc)).written
      balance := hsurvey.balance hends
      sent := fun hrest i c hc hreached => (hsurvey.sent hrest hc hreached).1 }

/-- A client sends a `PING`, an unknown name and a `QUIT`, and is lost while its replies are
written: five bytes of the first go out, after it has been counted. Another client sends what is no
request. -/
def oneLost : List Incident :=
  [.happen .accept, .happen .accept,
    .happen (.receive 0 (.bytes
      [80, 73, 78, 71, 13, 10, 70, 79, 79, 13, 10, 81, 85, 73, 84, 13, 10])),
    .happen (.receive 1 (.bytes [42, 120, 13, 10])), .happen (.move (.reader 0)),
    .happen (.move (.reader 0)), .happen (.move (.reader 1)), .happen (.move (.reader 1)),
    .happen (.move (.land 0 0)), .happen (.move (.reader 0)), .happen (.move (.writer 0)),
    .happen (.move (.writer 0)), .lose 0 5, .happen (.move (.reader 0)),
    .happen (.move (.reader 0)), .happen (.move (.land 0 1)), .happen (.move (.release 0)),
    .happen (.move (.depart 0)), .happen (.move (.writer 1)), .happen (.move (.writer 1)),
    .happen (.move (.release 1)), .happen (.move (.writer 1)), .happen (.move (.writer 1)),
    .happen (.move (.depart 1))]

theorem run_audit_one_lost :
    ∃ s, (start { routes := .own } {} .fresh).endure? oneLost = some s ∧
      s.tally = ⟨2, 0, 2, 1, 21, 76⟩ ∧ s.work.calls.length = 2 ∧
      s.events = [.connected 1, .connected 2, .disconnected 1 (some .reset),
        .disconnected 2 (some (.malformed (.integer .invalidDigit)))] ∧
      s.connections.map (·.writer.sent.length) = [5, 69] ∧ s.AtRest ∧
      ∃ history, Audit {} oneLost history s := by
  have hplain : Gateway.Plain { routes := .own } := ⟨rfl, rfl⟩
  have heval : ((start { routes := .own } {} .fresh).endure? oneLost).map (fun s =>
      (s.tally, s.work.calls.length, s.events, s.connections.map (·.writer.sent.length),
        s.connections.all isOver)) =
      some (⟨2, 0, 2, 1, 21, 76⟩, 2, [.connected 1, .connected 2, .disconnected 1 (some .reset),
        .disconnected 2 (some (.malformed (.integer .invalidDigit)))], [5, 69], true) := by
    decide +kernel
  obtain ⟨s, hrun, hs⟩ := Option.map_eq_some_iff.mp heval
  simp only [Prod.mk.injEq] at hs
  obtain ⟨htally, hcalls, hevents, hsent, hover⟩ := hs
  obtain ⟨history, -, haudit⟩ := run_audit hplain.alwaysEnds hrun
  exact ⟨s, hrun, htally, hcalls, hevents, hsent, atRest_of_all hover, history, haudit⟩

end Server

end RespGateway
