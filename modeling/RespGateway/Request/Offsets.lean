import RespGateway.Request.Stream

/-!
# Requests by offsets

`Request.decode` takes lists apart, where nothing can go wrong. A reader that leaves the
bytes where they are works with offsets and lengths in words of 64 bits, and whatever it
does with them can go wrong: a slice may not lie within the bytes, a sum may leave the
word, a negative number is no length. The readers of this module ask each time, and a
`Hazard` says what went wrong. Their checks come in the order of `RespGateway.Request`.
-/

namespace RespGateway.Request.Offsets

/-! ## Offsets that are checked -/

/-- What can go wrong with offsets. -/
inductive Hazard where
  /-- A slice does not lie within the bytes. -/
  | slice (start stop length : Nat)
  /-- A sum does not fit a word. -/
  | sum (a b : Nat)
  /-- A negative number is taken for a length. -/
  | negative (n : Int)
  /-- More bytes are to be taken off than there are. -/
  | split (count length : Nat)
  deriving DecidableEq, Repr

/-- The bytes from one offset up to another. -/
def slice (s : Bytes) (start stop : Nat) : Except Hazard Bytes :=
  if start ≤ stop ∧ stop ≤ s.length then .ok ((s.take stop).drop start)
  else .error (.slice start stop s.length)

/-- The bytes from an offset on. -/
def sliceFrom (s : Bytes) (start : Nat) : Except Hazard Bytes := slice s start s.length

/-- A sum of offsets or lengths. -/
def sum (a b : Nat) : Except Hazard Nat :=
  if a + b < UInt64.size then .ok (a + b) else .error (.sum a b)

/-- A number as a length. -/
def asLength (n : Int) : Except Hazard Nat := if 0 ≤ n then .ok n.toNat else .error (.negative n)

/-- The bytes without the first ones. -/
def splitOff (s : Bytes) (count : Nat) : Except Hazard Bytes :=
  if count ≤ s.length then .ok (s.drop count) else .error (.split count s.length)

/-! ## Reading -/

/-- What a reader by offsets finds. -/
inductive Found (α : Type) where
  /-- A part that takes `used` bytes. -/
  | part (value : α) (used : Nat)
  /-- The part goes on beyond what has arrived. -/
  | more
  /-- There is no such part here. -/
  | bad (fault : Fault)
  deriving DecidableEq, Repr

/-- The integer on a line, behind the first byte of the line. -/
def readLength (s : Bytes) : Except Hazard (Found Int) := do
  match Bytes.crlfFrom 0 (← sliceFrom s 1) with
  | none => return .more
  | some stop =>
    let text ← slice s 1 (← sum 1 stop)
    match Text.Utf8.fault? text with
    | some why => return .bad (.utf8 why)
    | none =>
      match Text.Decimal.readInt64 text with
      | .error why => return .bad (.integer why)
      | .ok n => return .part n (← sum (← sum 1 stop) 2)

/-- The bytes of an argument, whose length stands on the line before offset `start`. -/
def bulkBody (s : Bytes) (start size : Nat) : Except Hazard (Found Bytes) := do
  let needed ← sum (← sum start size) 2
  if s.length < needed then return .more
  else if (← slice s (← sum start size) needed) ≠ Bytes.crlf then return .bad .unterminatedBulk
  else return .part (← slice s start (← sum start size)) needed

/-- One argument of an array. -/
def element (s : Bytes) : Except Hazard (Found Bytes) := do
  match s.head? with
  | none => return .more
  | some b =>
    if b ≠ 36 then return .bad (.unexpectedElement b)
    else
      match ← readLength s with
      | .more => return .more
      | .bad fault => return .bad fault
      | .part length start =>
        if length < 0 then return .bad (.bulkLength length)
        else
          let size ← asLength length
          if maxBulk < size then return .bad (.tooLarge size maxBulk)
          else bulkBody s start size

/-- A number of arguments from an offset on, behind those that have been read. -/
def elements (s : Bytes) : Nat → List Bytes → Nat → Except Hazard (Found (List Bytes))
  | 0, args, offset => return .part args offset
  | count + 1, args, offset => do
    match ← element (← sliceFrom s offset) with
    | .more => return .more
    | .bad fault => return .bad fault
    | .part arg used => elements s count (args ++ [arg]) (← sum offset used)

/-- The number of arguments, and then the arguments. -/
def array (s : Bytes) : Except Hazard (Found (List Bytes)) := do
  match ← readLength s with
  | .more => return .more
  | .bad fault => return .bad fault
  | .part count start =>
    if count ≤ 0 then return .bad (.arrayLength count)
    else
      let size ← asLength count
      if maxArgs < size then return .bad (.tooLarge size maxArgs)
      else elements s size [] start

/-- The words of a line. -/
def inline (s : Bytes) : Except Hazard (Found (List Bytes)) := do
  match Bytes.crlfFrom 0 s with
  | none => return .more
  | some stop =>
    let text ← slice s 0 stop
    match Text.Utf8.fault? text with
    | some why => return .bad (.utf8 why)
    | none =>
      match Text.words (Text.Utf8.lossy text) with
      | [] => return .bad .emptyInline
      | w :: ws => return .part ((w :: ws).map Text.Utf8.encode) (← sum stop 2)

/-- What was found as a verdict. -/
def Found.verdict : Found (List Bytes) → Verdict
  | .part args used => .complete args used
  | .more => .incomplete
  | .bad fault => .malformed fault

/-- The request at the front of the bytes that have arrived. -/
def decode (s : Bytes) : Except Hazard Verdict :=
  match s.head? with
  | none => return .incomplete
  | some b => do return (← if b = 42 then array s else inline s).verdict

/-- Every complete request from the front of a buffer, each taken off the buffer; `none` if that
takes more than a number of rounds. The last round finds no request. -/
def drain : Nat → Bytes → Except Hazard (Option Drained)
  | 0, _ => return none
  | rounds + 1, s => do
    match ← decode s with
    | .complete args consumed =>
      let later ← drain rounds (← splitOff s consumed)
      return later.map fun d => { d with requests := (args, consumed) :: d.requests }
    | .incomplete => return some ⟨[], s, none⟩
    | .malformed fault => return some ⟨[], s, some fault⟩

end RespGateway.Request.Offsets
