import RespGateway.Proofs.Transcript

/-!
# Room for requests

A reader asks how much of an undecided request it holds only when it needs more, so
where the stream is cut could decide whether a request is refused for its size. It does
not where there is room: from every place in the stream where a request may begin, each
stretch that is undecided is shorter than the limit (`Room`). Then the transcript depends
on the bytes and not on the pieces in which they arrive (`ofArrivals_pieces`).

And where a reader does refuse for size, there is no room (`overfull_of_oversized`): what
it holds begins no request that fits, whatever stands before and behind it.
-/

namespace RespGateway

namespace Request

/-! ## Boundaries -/

/-- What stands in a stream behind some of its requests, from the first on. -/
inductive Boundary : Bytes → Bytes → Prop where
  | here (stream : Bytes) : Boundary stream stream
  | behind {stream rest : Bytes} {arguments : List Bytes} {consumed : Nat} :
      decode stream = .complete arguments consumed → Boundary (stream.drop consumed) rest →
      Boundary stream rest

theorem Boundary.append {stream rest : Bytes} (h : Boundary stream rest) (t : Bytes) :
    Boundary (stream ++ t) (rest ++ t) := by
  induction h with
  | here stream => exact .here _
  | @behind stream rest arguments consumed hd _ ih =>
      have hle := (decode_complete hd).2.1
      rw [← List.drop_append_of_le_length hle] at ih
      exact .behind (decode_append_complete hd t) ih

/-- There is room for every request of a stream: no stretch that is undecided reaches the limit,
from whatever boundary it is looked at. -/
def Room (limit : Nat) (stream : Bytes) : Prop :=
  ∀ rest, Boundary stream rest → ∀ stretch, stretch <+: rest → decode stretch = .incomplete →
    stretch.length < limit

/-- Behind some requests of a stream stand bytes that are undecided and reach the limit. -/
def Overfull (limit : Nat) (stream : Bytes) : Prop :=
  ∃ held unread, Boundary stream (held ++ unread) ∧ decode held = .incomplete ∧
    limit ≤ held.length

/-- Bytes that are undecided begin only requests that are longer. -/
theorem lt_of_held {limit : Nat} {held : Bytes} (hd : decode held = .incomplete)
    (hfull : limit ≤ held.length) {t : Bytes} {arguments : List Bytes} {consumed : Nat}
    (h : decode (held ++ t) = .complete arguments consumed) : limit < consumed :=
  Nat.lt_of_le_of_lt hfull (length_lt_of_incomplete h (List.prefix_append ..) hd)

theorem Room.drop {limit : Nat} {stream : Bytes} (h : Room limit stream) {arguments : List Bytes}
    {consumed : Nat} (hd : decode stream = .complete arguments consumed) :
    Room limit (stream.drop consumed) :=
  fun rest hrest => h rest (.behind hd hrest)

/-- What has room with more behind it has room. -/
theorem Room.left {limit : Nat} {stream t : Bytes} (h : Room limit (stream ++ t)) :
    Room limit stream := by
  intro rest hrest stretch hstretch hopen
  exact h (rest ++ t) (hrest.append t) stretch (hstretch.trans (List.prefix_append ..)) hopen

/-- There is room where no request is longer than the limit and what is left over is shorter. -/
theorem room_of_requests {limit : Nat} {stream : Bytes}
    (hrequests : ∀ request ∈ (drain stream).requests, request.2 ≤ limit)
    (hfault : (drain stream).fault = none) (hrest : (drain stream).rest.length < limit) :
    Room limit stream := by
  intro rest hboundary stretch hstretch hopen
  induction hboundary with
  | here stream =>
      cases hd : decode stream with
      | complete arguments consumed =>
          rw [drain_complete hd] at hrequests
          exact Nat.lt_of_lt_of_le (length_lt_of_incomplete hd hstretch hopen)
            (hrequests _ (List.mem_cons_self ..))
      | incomplete =>
          rw [drain_incomplete hd] at hrest
          exact Nat.lt_of_le_of_lt hstretch.length_le hrest
      | malformed fault =>
          rw [drain_malformed hd] at hfault
          cases hfault
  | @behind stream rest arguments consumed hd _ ih =>
      rw [drain_complete hd] at hrequests hfault hrest
      exact ih (fun request hmem => hrequests request (List.mem_cons_of_mem _ hmem)) hfault hrest
        hstretch

end Request

/-! ## Pieces of a stream -/

/-- The bytes of what has arrived. -/
def streamOf (arrivals : List Arrival) : Bytes :=
  arrivals.flatMap fun
    | .bytes piece => piece
    | _ => []

namespace Transcript

open Request (Room Overfull)

/-- A piece may as well have arrived together with what was there before. -/
theorem ofArrivals_piece {maxBuffer : Nat} {buffer piece : Bytes}
    (h : Room maxBuffer (buffer ++ piece)) (later : List Arrival) :
    ofArrivals maxBuffer buffer (.bytes piece :: later) =
      ofArrivals maxBuffer (buffer ++ piece) later := by
  induction buffer using Request.drain_induction with
  | complete buffer arguments consumed hd ih =>
      have hd' := Request.decode_append_complete hd piece
      have hdrop : (buffer ++ piece).drop consumed = buffer.drop consumed ++ piece :=
        List.drop_append_of_le_length (Request.decode_complete hd).2.1
      have hroom := h.drop hd'
      rw [hdrop] at hroom
      rw [ofArrivals_request hd, ofArrivals_request hd', hdrop, ih hroom]
  | incomplete buffer hd =>
      have hlen : buffer.length < maxBuffer :=
        h _ (.here _) buffer (List.prefix_append ..) hd
      rw [ofArrivals_incomplete hd, if_neg (Nat.not_le.mpr hlen)]
      rfl
  | malformed buffer fault hd =>
      rw [ofArrivals_malformed hd, ofArrivals_malformed (Request.decode_append_malformed hd piece)]

/-- **Where there is room, it does not matter how a stream is cut**: it may as well have arrived in
one piece. -/
theorem ofArrivals_pieces {maxBuffer : Nat} {buffer : Bytes} {pieces : List Bytes}
    (h : Room maxBuffer (buffer ++ pieces.flatten)) (later : List Arrival) :
    ofArrivals maxBuffer buffer (pieces.map .bytes ++ later) =
      ofArrivals maxBuffer (buffer ++ pieces.flatten) later := by
  induction pieces generalizing buffer with
  | nil => rw [List.map_nil, List.nil_append, List.flatten_nil, List.append_nil]
  | cons piece pieces ih =>
      rw [List.flatten_cons, ← List.append_assoc] at h
      rw [List.map_cons, List.cons_append, ofArrivals_piece h.left, ih h, List.flatten_cons,
        List.append_assoc]

/-- A reader that gives up with its buffer holds a stretch that reaches the limit, or goes on and
gives up with what it reads then. -/
theorem oversized_of_further {maxBuffer : Nat} {buffer : Bytes} {arrivals : List Arrival}
    (hfurther : ∀ rest, (further maxBuffer arrivals rest).ending = some (.troubled .oversized) →
      Overfull maxBuffer (rest ++ streamOf arrivals))
    (h : (ofArrivals maxBuffer buffer arrivals).ending = some (.troubled .oversized)) :
    Overfull maxBuffer (buffer ++ streamOf arrivals) := by
  induction buffer using Request.drain_induction with
  | complete buffer arguments consumed hd ih =>
      rw [ofArrivals_request hd] at h
      by_cases hquit : asksToQuit arguments = true
      · rw [if_pos hquit] at h
        cases h
      · rw [if_neg hquit] at h
        obtain ⟨held, unread, hboundary, hheld⟩ := ih h
        rw [← List.drop_append_of_le_length (Request.decode_complete hd).2.1] at hboundary
        exact ⟨held, unread, .behind (Request.decode_append_complete hd _) hboundary, hheld⟩
  | incomplete buffer hd =>
      rw [ofArrivals_incomplete hd] at h
      by_cases hfull : maxBuffer ≤ buffer.length
      · exact ⟨buffer, streamOf arrivals, .here _, hd, hfull⟩
      · rw [if_neg hfull] at h
        exact hfurther buffer h
  | malformed buffer fault hd =>
      rw [ofArrivals_malformed hd] at h
      cases h

/-- **What fits is not refused for its size**: where a client is told that a request is too large,
its stream is overfull. -/
theorem overfull_of_oversized {maxBuffer : Nat} {buffer : Bytes} {arrivals : List Arrival}
    (h : (ofArrivals maxBuffer buffer arrivals).ending = some (.troubled .oversized)) :
    Overfull maxBuffer (buffer ++ streamOf arrivals) := by
  induction arrivals generalizing buffer with
  | nil => exact oversized_of_further (fun rest hrest => by cases hrest) h
  | cons a later ih =>
      refine oversized_of_further (fun rest hrest => ?_) h
      cases a with
      | bytes piece =>
          have hlater := ih hrest
          rwa [List.append_assoc] at hlater
      | endOfInput =>
          -- an end of input is never told as a request that is too large
          rw [further] at hrest
          cases hempty : rest.isEmpty <;> rw [hempty] at hrest <;> cases hrest
      | reset => cases hrest

end Transcript

end RespGateway
