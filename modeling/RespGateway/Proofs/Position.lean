import Mathlib.Computability.StateTransition
import RespGateway.Proofs.Rest

/-!
# How far a reader gets

A reader uses what its client has sent in one way only. It looks for a request in what it
has read, and reads the next arrival where it needs more; when it goes on depends on the
commands under way and on the other clients, but not what it does then. So its position
is on the one path that leads through what has arrived (`position_run`), and a reader that
has nothing left to do stands at the end of that path.
-/

namespace RespGateway

open StateTransition

/-- How far a reader has got in what its client has sent. -/
structure Position where
  /-- What has been read and has not been used. -/
  buffer : Bytes
  /-- What has not been read. -/
  inbox : List Arrival
  /-- Whether nothing more is read or used. -/
  stopped : Bool
  deriving DecidableEq, Repr

namespace Position

/-- Where a reader has nothing yet of what has arrived. -/
def before (arrivals : List Arrival) : Position := ⟨[], arrivals, false⟩

/-- The position when something more has arrived. -/
def push (p : Position) (a : Arrival) : Position := { p with inbox := p.inbox ++ [a] }

/-- Where a reader gets that reads the next arrival. -/
def advance? (p : Position) : Option Position :=
  match p.inbox with
  | [] => none
  | .bytes piece :: inbox => some { p with inbox, buffer := p.buffer ++ piece }
  | .endOfInput :: inbox => some { p with inbox, stopped := true }
  | .reset :: inbox => some { p with inbox, stopped := true }

/-- Where a reader gets next, if it gets any further. -/
def next? (maxBuffer : Nat) (p : Position) : Option Position :=
  if p.stopped then none
  else
    match Request.decode p.buffer with
    | .complete arguments consumed =>
      some { p with buffer := p.buffer.drop consumed, stopped := asksToQuit arguments }
    | .malformed _ => some { p with stopped := true }
    | .incomplete =>
      if maxBuffer ≤ p.buffer.length then some { p with stopped := true } else p.advance?

variable {maxBuffer : Nat} {p q : Position}

theorem advance?_push (h : p.advance? = some q) (a : Arrival) :
    (p.push a).advance? = some (q.push a) := by
  obtain ⟨buffer, inbox, stopped⟩ := p
  cases inbox with
  | nil => cases h
  | cons first inbox => cases first <;> cases h <;> rfl

/-- What arrives behind does not change what a reader does before it. -/
theorem next?_push (h : p.next? maxBuffer = some q) (a : Arrival) :
    (p.push a).next? maxBuffer = some (q.push a) := by
  unfold next? at h ⊢
  rw [show (p.push a).stopped = p.stopped from rfl, show (p.push a).buffer = p.buffer from rfl]
  split at h
  · cases h
  · rename_i hstopped
    rw [if_neg hstopped]
    cases hd : Request.decode p.buffer with
    | complete arguments consumed =>
        simp only [hd] at h ⊢
        cases h
        rfl
    | malformed fault =>
        simp only [hd] at h ⊢
        cases h
        rfl
    | incomplete =>
        simp only [hd] at h ⊢
        split at h
        · rename_i hfull
          cases h
          rw [if_pos hfull]
          rfl
        · rename_i hroom
          rw [if_neg hroom]
          exact advance?_push h a

theorem reaches_push (h : Reaches (next? maxBuffer) p q) (a : Arrival) :
    Reaches (next? maxBuffer) (p.push a) (q.push a) := by
  induction h with
  | refl => exact .refl
  | tail _ hstep ih => exact ih.tail (next?_push hstep a)

end Position

/-! ## The reader of a connection -/

/-- Whether a reader uses nothing more of what its client sends. -/
def Reader.hasStopped : Reader → Bool
  | .reading => false
  | .awaiting _ last => last
  | .draining _ => true
  | .finished _ => true

theorem Reader.hasStopped_afterLanding (ticket : Nat) (r : Reader) :
    (r.afterLanding ticket).hasStopped = r.hasStopped := by
  rcases r.afterLanding_cases ticket with hsame | ⟨last, hawaiting, hafter⟩
  · rw [hsame]
  · rw [hafter, hawaiting]
    cases last <;> rfl

namespace Connection

variable {o : Options} {c : Connection}

/-- How far a connection has got in what its client has sent. -/
def position (c : Connection) : Position := ⟨c.buffer, c.inbox, c.reader.hasStopped⟩

theorem position_finish (c : Connection) (why : Departure) :
    (c.finish why).position = ⟨c.buffer, c.inbox, true⟩ := by
  unfold finish
  dsimp only
  split <;> rfl

theorem next?_complete {arguments : List Bytes} {consumed : Nat} (hreader : c.reader = .reading)
    (hd : Request.decode c.buffer = .complete arguments consumed) :
    c.position.next? o.maxBuffer =
      some ⟨c.buffer.drop consumed, c.inbox, asksToQuit arguments⟩ := by
  simp only [Position.next?, position, hreader, Reader.hasStopped, hd]
  rfl

theorem next?_incomplete (hreader : c.reader = .reading)
    (hd : Request.decode c.buffer = .incomplete) (hroom : ¬o.maxBuffer ≤ c.buffer.length) :
    c.position.next? o.maxBuffer = c.position.advance? := by
  simp only [Position.next?, position, hreader, Reader.hasStopped, hd, if_neg hroom]
  rfl

theorem next?_ends {inbox : List Arrival} {why : Departure} (hreader : c.reader = .reading)
    (h : c.Ends o inbox why) :
    c.position.next? o.maxBuffer = some ⟨c.buffer, inbox, true⟩ := by
  cases h with
  | malformed hd =>
      simp only [Position.next?, position, hreader, Reader.hasStopped, hd]
      rfl
  | oversized hd hfull =>
      simp only [Position.next?, position, hreader, Reader.hasStopped, hd, if_pos hfull]
      rfl
  | left hd hroom hinbox =>
      rw [next?_incomplete hreader hd hroom, Position.advance?, position, hinbox]
  | reset hd hroom hinbox =>
      rw [next?_incomplete hreader hd hroom, Position.advance?, position, hinbox]

/-- A connection with nothing left to do has got as far as it can. -/
theorem Settled.next? (h : c.Settled o) : c.position.next? o.maxBuffer = none := by
  cases h with
  | listening hreader hd hroom hinbox =>
      rw [next?_incomplete hreader hd hroom, Position.advance?, position, hinbox]
  | ended hreader =>
      rw [Position.next?, position, hreader]
      rfl

end Connection

namespace Server

/-- **A move takes no reader off the path**: it gets a step on, or stays where it is. -/
theorem Effect.position {s s' : Server} {i : Nat} {c : Connection} {m : Move}
    (h : Effect s i c m s') (hlast : ∀ x, c.reader = .draining x → x.command = .quit) :
    ∃ c', s'.connections = s.connections.set i c' ∧
      (c'.position = c.position ∨
        c.position.next? s.options.maxBuffer = some c'.position) := by
  cases h with
  | refuse hreader hd hx =>
      refine ⟨_, rfl, .inr ?_⟩
      rw [Connection.next?_complete hreader hd, asksToQuit_of_error hx]
      simp only [Connection.position, Connection.offer, hreader, Reader.hasStopped]
  | drain hreader hd hx hquit =>
      refine ⟨_, rfl, .inr ?_⟩
      rw [Connection.next?_complete hreader hd, (asksToQuit_of_ok hx).mpr hquit]
      rfl
  | takeOn hreader hd hx hquit =>
      refine ⟨_, rfl, .inr ?_⟩
      have hnot := Bool.eq_false_iff.mpr (mt (asksToQuit_of_ok hx).mp hquit)
      rw [Connection.next?_complete hreader hd, hnot]
      simp only [Connection.position, beq_eq_false_iff_ne.mpr hquit, Bool.or_false]
      split <;> rfl
  | takeOnLast hreader =>
      refine ⟨_, rfl, .inl ?_⟩
      simp only [Connection.position, hlast _ hreader, beq_self_eq_true, Bool.or_true, if_true,
        hreader, Reader.hasStopped]
  | read hreader hd hroom hinbox =>
      refine ⟨_, rfl, .inr ?_⟩
      rw [Connection.next?_incomplete hreader hd hroom]
      simp only [Position.advance?, Connection.position, hinbox]
  | finish hreader hends =>
      refine ⟨_, rfl, .inr ?_⟩
      rw [Connection.next?_ends hreader hends, Connection.position_finish]
  | land =>
      refine ⟨_, rfl, .inl ?_⟩
      simp only [Connection.position, Reader.hasStopped_afterLanding]
  | write => exact ⟨_, rfl, .inl rfl⟩
  | release => exact ⟨_, rfl, .inl rfl⟩
  | depart => exact ⟨_, rfl, .inl rfl⟩

/-- **In every run a reader is on the path through what has arrived from its client.** -/
theorem position_run {g : Gateway} {o : Connection.Options} {store : Store}
    {run : List Happening} {s : Server} (hrun : (start g o store).follow? run = some s) :
    ∀ i c, s.connections[i]? = some c →
      Reaches (Position.next? o.maxBuffer) (.before (arrived run i)) c.position := by
  refine follow?_induction (P := fun run s => ∀ i c, s.connections[i]? = some c →
    Reaches (Position.next? o.maxBuffer) (.before (arrived run i)) c.position) ?_ ?_ hrun
  · intro i c hc
    simp [start] at hc
  · intro run s e s' hrun ih hstep i c hc
    obtain ⟨ledger, history, hbooks, -⟩ := books_run hrun
    rw [arrived_concat]
    cases e with
    | accept =>
        cases hstep
        rw [show Server.arrived [.accept] i = [] from rfl, List.append_nil]
        rcases getElem?_accept hc with hc | ⟨rfl, rfl⟩
        · exact ih i c hc
        · -- nothing has arrived yet from a client that connects
          rw [(hbooks.absent _ (Nat.le_refl _)).1]
          exact .refl
    | receive j a =>
        simp only [happen?] at hstep
        split at hstep
        · rename_i hj
          cases hstep
          have hd := List.getElem?_eq_getElem hj
          rw [Server.receive, hd] at hc
          rcases getElem?_set_cases hc with ⟨rfl, rfl⟩ | ⟨hi, hc⟩
          · rw [show Server.arrived [.receive i a] i = [a] by simp [Server.arrived]]
            exact Position.reaches_push (ih _ _ hd) a
          · rw [show Server.arrived [.receive j a] i = [] by simp [Server.arrived, Ne.symm hi],
              List.append_nil]
            exact ih i c hc
        · cases hstep
    | move m =>
        obtain ⟨d, hd, heffect⟩ := perform?_effect hstep
        obtain ⟨d', hconnections, hposition⟩ := heffect.position fun x hreader => by
          obtain ⟨-, past, underway, hst⟩ := hbooks.connections _ _ hd
          have hstage := hst.stage
          rw [hreader] at hstage
          exact hstage.1
        rw [show Server.arrived [.move m] i = [] from rfl, List.append_nil]
        rw [hconnections] at hc
        rcases getElem?_set_cases hc with ⟨rfl, rfl⟩ | ⟨-, hc⟩
        · rcases hposition with hsame | hnext
          · rw [hsame]
            exact ih _ _ hd
          · rw [hbooks.options] at hnext
            exact (ih _ _ hd).tail hnext
        · exact ih i c hc

end Server

end RespGateway
