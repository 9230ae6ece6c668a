import RespGateway.Request

/-!
# Requests from a stream

Bytes arrive in pieces that know nothing of request boundaries. What has arrived and
is not yet used stays in a buffer; after each piece every complete request is taken
from its front. A fault ends the stream.
-/

namespace RespGateway.Request

/-- What a buffer holds: its complete requests, each with the number of bytes it took, and what is
left, with the fault that the rest begins with if it is one. -/
structure Drained where
  requests : List (List Bytes × Nat)
  rest : Bytes
  fault : Option Fault
  deriving DecidableEq, Repr

/-- At most `fuel` requests from the front of a buffer. -/
def drainWithin : Nat → Bytes → Drained
  | 0, s => ⟨[], s, none⟩
  | fuel + 1, s =>
    match decode s with
    | .complete args consumed =>
      let later := drainWithin fuel (s.drop consumed)
      { later with requests := (args, consumed) :: later.requests }
    | .incomplete => ⟨[], s, none⟩
    | .malformed fault => ⟨[], s, some fault⟩

/-- Every complete request at the front of a buffer. A request takes at least one byte, so there
are no more of them than bytes. -/
def drain (s : Bytes) : Drained := drainWithin s.length s

/-- What each piece yields, up to the first fault; `buffer` is what the earlier pieces left. -/
def feed (buffer : Bytes) : List Bytes → List Drained
  | [] => []
  | piece :: pieces =>
    let now := drain (buffer ++ piece)
    now :: if now.fault.isSome then [] else feed now.rest pieces

end RespGateway.Request
