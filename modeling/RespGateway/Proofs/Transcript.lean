import RespGateway.Proofs.Cutting
import RespGateway.Proofs.Runs

/-!
# What a client has said

What a client sends arrives in pieces. Its transcript is what a reader makes of them:
the complete requests in order, up to the first `QUIT`, and why nothing after them is
heard. It depends on what has arrived and on the space for a request, and on nothing
else: not on the commands, their replies or the other clients.

`Connection.outlook` is the transcript of what a connection has not used yet. What a
reader does takes a request off the outlook or leaves it as it is.
-/

namespace RespGateway

/-- What a client has said. -/
structure Transcript where
  /-- The complete requests, up to the first `QUIT` and with it. -/
  requests : List (List Bytes)
  /-- Why nothing after them is heard. -/
  ending : Option Departure
  /-- What stands undecided after them while more may be heard. -/
  rest : Bytes
  deriving DecidableEq, Repr

/-- Whether the arguments of a request are a `QUIT`. -/
def asksToQuit : List Bytes → Bool
  | [name] => Command.ofName? name == some .quit
  | _ => false

/-- The error that a client is told at the end of its connection. -/
def Departure.told (why : Departure) : Option Reply := why.trouble?.bind Trouble.reply?

/-- The error line that a connection ends with, if any. -/
def Departure.lastLine? : Departure → Option String
  | .troubled (.malformed fault) => some ("ERR Protocol error: " ++ fault.message)
  | .troubled .oversized => some "ERR Protocol error: request exceeds max buffer"
  | .troubled .cutShort => none
  | .troubled .reset => none
  | .quit => none
  | .left => none

theorem told_eq (why : Departure) : why.told = why.lastLine?.map Reply.error := by
  cases why with
  | quit => rfl
  | left => rfl
  | troubled trouble =>
      cases trouble with
      | malformed fault =>
          have htext : "ERR " ++ ("Protocol error: " ++ fault.message) =
              "ERR Protocol error: " ++ fault.message := by
            rw [← String.append_assoc]
            rfl
          change some (Reply.error ("ERR " ++ ("Protocol error: " ++ fault.message))) = _
          rw [htext]
          rfl
      | cutShort => rfl
      | oversized => rfl
      | reset => rfl

/-- Requests up to the first `QUIT` and with it. -/
def upToQuit : List (List Bytes) → List (List Bytes)
  | [] => []
  | arguments :: later =>
    if asksToQuit arguments then [arguments] else arguments :: upToQuit later

namespace Transcript

/-- A transcript with requests before it. -/
def after (past : List (List Bytes)) (t : Transcript) : Transcript :=
  { t with requests := past ++ t.requests }

/-- The transcript of a client that is not heard any more. -/
def ended (why : Departure) : Transcript := ⟨[], some why, []⟩

/-- The transcript of what a buffer held, and of what follows where the reader asks for more. It
does so only where it is undecided, and asks only then whether it has the space. -/
def ofDrained (maxBuffer : Nat) (d : Request.Drained) (more : Bytes → Transcript) : Transcript :=
  let requests := d.requests.map Prod.fst
  if requests.any asksToQuit then ⟨upToQuit requests, some .quit, []⟩
  else
    match d.fault with
    | some fault => (ended (.troubled (.malformed fault))).after requests
    | none =>
      if maxBuffer ≤ d.rest.length then (ended (.troubled .oversized)).after requests
      else (more d.rest).after requests

/-- What a client has said with unused bytes and what arrives after them. -/
def ofArrivals (maxBuffer : Nat) (buffer : Bytes) : List Arrival → Transcript
  | [] => ofDrained maxBuffer (Request.drain buffer) fun rest => ⟨[], none, rest⟩
  | .bytes piece :: later =>
    ofDrained maxBuffer (Request.drain buffer) fun rest =>
      ofArrivals maxBuffer (rest ++ piece) later
  | .endOfInput :: _ =>
    ofDrained maxBuffer (Request.drain buffer) fun rest =>
      ended (if rest.isEmpty then .left else .troubled .cutShort)
  | .reset :: _ => ofDrained maxBuffer (Request.drain buffer) fun _ => ended (.troubled .reset)

theorem after_after (past past' : List (List Bytes)) (t : Transcript) :
    (t.after past').after past = t.after (past ++ past') := by
  simp [after]

/-! ## The first request -/

variable {maxBuffer : Nat} {buffer : Bytes}

/-- The transcript where the reader asks for more. -/
def further (maxBuffer : Nat) (arrivals : List Arrival) (rest : Bytes) : Transcript :=
  match arrivals with
  | [] => ⟨[], none, rest⟩
  | .bytes piece :: later => ofArrivals maxBuffer (rest ++ piece) later
  | .endOfInput :: _ => ended (if rest.isEmpty then .left else .troubled .cutShort)
  | .reset :: _ => ended (.troubled .reset)

theorem ofArrivals_eq (arrivals : List Arrival) :
    ofArrivals maxBuffer buffer arrivals =
      ofDrained maxBuffer (Request.drain buffer) (further maxBuffer arrivals) := by
  cases arrivals with
  | nil => rfl
  | cons a later => cases a <;> rfl

theorem ofDrained_behind (d : Request.Drained) (more : Bytes → Transcript)
    (arguments : List Bytes) (consumed : Nat) :
    ofDrained maxBuffer (d.behind (arguments, consumed)) more =
      (if asksToQuit arguments then ended .quit else ofDrained maxBuffer d more).after
        [arguments] := by
  unfold ofDrained Request.Drained.behind
  simp only [List.map_cons, List.any_cons]
  by_cases hquit : asksToQuit arguments
  · simp [hquit, upToQuit, ended, after]
  · simp only [hquit, Bool.false_or, upToQuit, Bool.false_eq_true, if_false]
    split
    · rfl
    · split
      · rw [after_after]; rfl
      · split <;> rw [after_after] <;> rfl

theorem ofArrivals_request {arguments : List Bytes} {consumed : Nat}
    (h : Request.decode buffer = .complete arguments consumed) (arrivals : List Arrival) :
    ofArrivals maxBuffer buffer arrivals =
      (if asksToQuit arguments then ended .quit
        else ofArrivals maxBuffer (buffer.drop consumed) arrivals).after [arguments] := by
  rw [ofArrivals_eq, ofArrivals_eq, Request.drain_complete h, ofDrained_behind]

theorem ofArrivals_malformed {fault : Request.Fault}
    (h : Request.decode buffer = .malformed fault) (arrivals : List Arrival) :
    ofArrivals maxBuffer buffer arrivals = ended (.troubled (.malformed fault)) := by
  rw [ofArrivals_eq, Request.drain_malformed h]
  rfl

theorem ofArrivals_incomplete (h : Request.decode buffer = .incomplete)
    (arrivals : List Arrival) :
    ofArrivals maxBuffer buffer arrivals =
      if maxBuffer ≤ buffer.length then ended (.troubled .oversized)
      else further maxBuffer arrivals buffer := by
  rw [ofArrivals_eq, Request.drain_incomplete h]
  rfl

end Transcript

/-! ## The last request -/

theorem upToQuit_append {requests : List (List Bytes)} (h : requests.any asksToQuit = false)
    (later : List (List Bytes)) : upToQuit (requests ++ later) = requests ++ upToQuit later := by
  induction requests with
  | nil => rfl
  | cons arguments requests ih =>
      rw [List.any_cons, Bool.or_eq_false_iff] at h
      rw [List.cons_append, upToQuit, if_neg (by simp [h.1]), ih h.2, List.cons_append]

theorem upToQuit_upToQuit (requests : List (List Bytes)) :
    upToQuit (upToQuit requests) = upToQuit requests := by
  induction requests with
  | nil => rfl
  | cons arguments requests ih =>
      rw [upToQuit]
      by_cases hquit : asksToQuit arguments = true
      · rw [if_pos hquit, upToQuit, if_pos hquit]
      · rw [if_neg hquit, upToQuit, if_neg hquit, ih]

namespace Transcript

/-- A `QUIT` is the last request and ends what is heard. -/
structure Proper (t : Transcript) : Prop where
  last : upToQuit t.requests = t.requests
  quits : t.requests.any asksToQuit = true → t.ending = some .quit

theorem proper_ended (why : Departure) : (ended why).Proper := ⟨rfl, by simp [ended]⟩

theorem Proper.after {t : Transcript} (h : t.Proper) {requests : List (List Bytes)}
    (hnone : requests.any asksToQuit = false) : (t.after requests).Proper := by
  constructor
  · rw [Transcript.after, upToQuit_append hnone, h.last]
  · rw [Transcript.after, List.any_append, hnone, Bool.false_or]
    exact h.quits

theorem ofDrained_proper {maxBuffer : Nat} (d : Request.Drained) {more : Bytes → Transcript}
    (h : ∀ rest, (more rest).Proper) : (ofDrained maxBuffer d more).Proper := by
  unfold ofDrained
  dsimp only
  split
  · exact ⟨upToQuit_upToQuit _, fun _ => rfl⟩
  · rename_i hquit
    -- no request quits, so what follows decides how the transcript ends
    have hnone : (d.requests.map Prod.fst).any asksToQuit = false := by simpa using hquit
    split
    · exact (proper_ended _).after hnone
    · split
      · exact (proper_ended _).after hnone
      · exact (h _).after hnone

theorem ofArrivals_proper {maxBuffer : Nat} (arrivals : List Arrival) (buffer : Bytes) :
    (ofArrivals maxBuffer buffer arrivals).Proper := by
  induction arrivals generalizing buffer with
  | nil => exact ofDrained_proper _ fun rest => ⟨rfl, by simp⟩
  | cons a later ih =>
      cases a with
      | bytes piece => exact ofDrained_proper _ fun rest => ih (rest ++ piece)
      | endOfInput => exact ofDrained_proper _ fun rest => proper_ended _
      | reset => exact ofDrained_proper _ fun rest => proper_ended _

/-- What the client is told at the end, after its requests have been answered. -/
def farewell (t : Transcript) : List Reply :=
  ((t.ending.bind Departure.lastLine?).map Reply.error).toList

theorem farewell_told (t : Transcript) :
    t.farewell = (t.ending.bind Departure.told).toList := by
  unfold farewell
  cases t.ending with
  | none => rfl
  | some why => rw [Option.bind_some, Option.bind_some, told_eq]

theorem farewell_ended (past : List (List Bytes)) (why : Departure) :
    ((ended why).after past).farewell = why.told.toList := farewell_told _

end Transcript

/-! ## What a connection has before it -/

namespace Connection

/-- What becomes of what a connection has not used yet and what is still to arrive. -/
def outlook (o : Options) (c : Connection) (later : List Arrival) : Transcript :=
  match c.reader with
  | .reading => .ofArrivals o.maxBuffer c.buffer (c.inbox ++ later)
  | .awaiting _ false => .ofArrivals o.maxBuffer c.buffer (c.inbox ++ later)
  | .awaiting _ true => .ended .quit
  | .draining _ => .ended .quit
  | .finished why => .ended why

theorem outlook_ends {o : Options} {c : Connection} {inbox : List Arrival} {why : Departure}
    (h : c.Ends o inbox why) (hreader : c.reader = .reading) (later : List Arrival) :
    c.outlook o later = .ended why := by
  simp only [outlook, hreader]
  cases h with
  | malformed hd => exact Transcript.ofArrivals_malformed hd _
  | oversized hd hfull => rw [Transcript.ofArrivals_incomplete hd, if_pos hfull]
  | left hd hroom hinbox =>
      rw [Transcript.ofArrivals_incomplete hd, if_neg hroom, hinbox]
      rfl
  | reset hd hroom hinbox =>
      rw [Transcript.ofArrivals_incomplete hd, if_neg hroom, hinbox]
      rfl

end Connection

end RespGateway
