import RespGateway.Outbox

/-!
# The writer of a connection

The writer takes what waits in the outbox, item by item, and writes it behind a
buffer. It flushes the buffer to the client when nothing waits any more, so that
replies that wait together travel together. It ends after the reply to a `QUIT`, or
when the outbox is empty and nobody is left who could put anything in; before it ends
it flushes what it has written.

The writer goes one step at a time. Between two steps others may put something in the
outbox or let go of it. Wherever it would write to the client it may find that the client
cannot be reached; then it is lost, with what it has not sent and what still waits.
-/

namespace RespGateway

/-- Where a writer stands. -/
inductive Writer.Phase where
  /-- It takes the next item, or waits for one. -/
  | waiting
  /-- It has written an item into its buffer; the flag tells whether that was the last. -/
  | wrote (last : Bool)
  /-- It takes nothing any more. -/
  | closing
  /-- It has shut its side of the connection down, or was lost. -/
  | stopped
  deriving DecidableEq, Repr

/-- The writer of a connection. -/
structure Writer where
  outbox : Outbox
  /-- Whether somebody may still put something in the outbox. -/
  hasSenders : Bool := true
  phase : Writer.Phase := .waiting
  /-- What has been written and not flushed. -/
  buffered : Bytes := []
  /-- What has been flushed to the client. -/
  sent : Bytes := []
  /-- How many bytes have been written. -/
  written : Nat := 0
  /-- Whether it could not write to its client. -/
  isLost : Bool := false
  deriving DecidableEq, Repr

namespace Writer

/-- The writer of a new session. -/
def ofSession (session : UInt64) : Writer := { outbox := { session } }

/-- Flushes the buffer to the client. -/
def flush (w : Writer) : Writer := { w with sent := w.sent ++ w.buffered, buffered := [] }

/-- Takes an item out of the outbox and writes it into the buffer. -/
def write (w : Writer) (item : Outgoing) (outbox : Outbox) : Writer :=
  let bytes := item.content.encode
  { w with
    outbox
    buffered := w.buffered ++ bytes
    written := w.written + bytes.length
    phase := .wrote item.isLast }

/-- The next step of a writer; `none` while it waits and once it has stopped. -/
def step? (w : Writer) : Option Writer :=
  match w.phase with
  | .waiting =>
    match w.outbox.take? with
    | some (item, outbox) => some (w.write item outbox)
    | none => if w.hasSenders then none else some { w with phase := .closing }
  | .wrote last =>
    let flushed := if last || w.outbox.waiting.isEmpty then w.flush else w
    some { flushed with phase := if last then .closing else .waiting }
  | .closing => some { w.flush with phase := .stopped, outbox := w.outbox.close }
  | .stopped => none

/-- The writer is lost when these bytes of what it was to send have gone out. It counts none of
them, and nobody can put anything in its outbox any more. -/
def lose (w : Writer) (gone : Bytes) : Writer :=
  { w with
    sent := w.sent ++ gone
    buffered := []
    phase := .stopped
    outbox := w.outbox.close
    isLost := true }

/-- A write to the client that fails after some bytes: that of an item behind what is in the buffer,
that of the buffer when it is flushed, or the last one; `none` where nothing is to be written. -/
def fail? (w : Writer) (count : Nat) : Option Writer :=
  match w.phase with
  | .waiting =>
    w.outbox.take?.map fun (item, _) =>
      w.lose ((w.buffered ++ item.content.encode).take count)
  | .wrote last =>
    if last || w.outbox.waiting.isEmpty then some (w.lose (w.buffered.take count)) else none
  | .closing => some (w.lose (w.buffered.take count))
  | .stopped => none

/-- Somebody puts something in the outbox. -/
def offer (w : Writer) (item : Outgoing) : Writer := { w with outbox := w.outbox.offer item }

/-- Nobody is left who could put anything in the outbox. -/
def release (w : Writer) : Writer := { w with hasSenders := false }

/-- Whether the writer has ended. -/
def isStopped (w : Writer) : Bool := w.phase == .stopped

end Writer

end RespGateway
