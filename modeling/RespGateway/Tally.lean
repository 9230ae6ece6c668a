/-!
# Tallies

What a server counts over all its connections, in words of 64 bits.
-/

namespace RespGateway

/-- The counters of a server. -/
structure Tally where
  /-- Connections made. -/
  accepted : UInt64 := 0
  /-- Connections that have not ended. -/
  active : UInt64 := 0
  /-- Commands taken on. -/
  processed : UInt64 := 0
  /-- Requests refused. -/
  rejected : UInt64 := 0
  /-- Bytes received. -/
  read : UInt64 := 0
  /-- Bytes of replies. -/
  written : UInt64 := 0
  deriving DecidableEq, Repr

namespace Tally

/-- A connection begins. -/
def opened (t : Tally) : Tally := { t with accepted := t.accepted + 1, active := t.active + 1 }

/-- A connection ends. -/
def closed (t : Tally) : Tally := { t with active := t.active - 1 }

/-- A command is taken on. -/
def commandProcessed (t : Tally) : Tally := { t with processed := t.processed + 1 }

/-- A request is refused. -/
def commandRejected (t : Tally) : Tally := { t with rejected := t.rejected + 1 }

/-- Bytes are received. -/
def bytesRead (t : Tally) (count : Nat) : Tally := { t with read := t.read + UInt64.ofNat count }

/-- Bytes of replies are written. -/
def bytesWritten (t : Tally) (count : Nat) : Tally :=
  { t with written := t.written + UInt64.ofNat count }

end Tally

end RespGateway
