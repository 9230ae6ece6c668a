import RespGateway.Bytes

/-!
# UTF-8

Characters as bytes (`encode`) and bytes as characters, one byte at a time: `start`
reads the first byte of a character and `Pending.next` each byte that is owed after
it. Over a whole list there are two readers. `fault?` finds the first place where
the bytes are not UTF-8. `lossy` reads on: every longest piece that could have begun
a character and does not becomes one replacement character.
-/

namespace RespGateway.Text.Utf8

/-! ## Writing -/

/-- One character as one to four bytes. -/
def encodeChar (c : Char) : Bytes :=
  let n := c.toNat
  if n < 0x80 then [UInt8.ofNat n]
  else if n < 0x800 then [UInt8.ofNat (0xC0 + n / 64), UInt8.ofNat (0x80 + n % 64)]
  else if n < 0x10000 then
    [UInt8.ofNat (0xE0 + n / 4096), UInt8.ofNat (0x80 + n / 64 % 64), UInt8.ofNat (0x80 + n % 64)]
  else
    [UInt8.ofNat (0xF0 + n / 262144), UInt8.ofNat (0x80 + n / 4096 % 64),
      UInt8.ofNat (0x80 + n / 64 % 64), UInt8.ofNat (0x80 + n % 64)]

/-- Characters one after another. -/
def encode (cs : List Char) : Bytes := cs.flatMap encodeChar

/-- The bytes of a text. -/
def ofString (s : String) : Bytes := encode s.toList

/-! ## Reading one character -/

/-- A character whose first bytes have been read. -/
structure Pending where
  /-- How many bytes are still owed. -/
  owed : Nat
  /-- The least value the next byte may have. -/
  low : Nat
  /-- The greatest value the next byte may have. -/
  high : Nat
  /-- The bits read so far. -/
  bits : Nat
  /-- How many bytes have been read. -/
  count : Nat
  deriving DecidableEq, Repr

/-- What one more byte makes of a character. -/
inductive Step where
  /-- The character is complete. -/
  | char (c : Char)
  /-- More bytes are owed. -/
  | more (p : Pending)
  /-- The byte cannot stand here. -/
  | refused
  deriving DecidableEq, Repr

/-- The first byte of a character. -/
def start (b : UInt8) : Step :=
  let n := b.toNat
  if n < 0x80 then .char (Char.ofNat n)
  else if n < 0xC2 then .refused
  else if n < 0xE0 then .more ⟨1, 0x80, 0xBF, n - 0xC0, 1⟩
  else if n = 0xE0 then .more ⟨2, 0xA0, 0xBF, 0, 1⟩
  else if n = 0xED then .more ⟨2, 0x80, 0x9F, 13, 1⟩
  else if n < 0xF0 then .more ⟨2, 0x80, 0xBF, n - 0xE0, 1⟩
  else if n = 0xF0 then .more ⟨3, 0x90, 0xBF, 0, 1⟩
  else if n < 0xF4 then .more ⟨3, 0x80, 0xBF, n - 0xF0, 1⟩
  else if n = 0xF4 then .more ⟨3, 0x80, 0x8F, 4, 1⟩
  else .refused

/-- A byte that a character under way owes. -/
def Pending.next (p : Pending) (b : UInt8) : Step :=
  let n := b.toNat
  if n < p.low ∨ p.high < n then .refused
  else
    let bits := p.bits * 64 + (n - 0x80)
    if p.owed ≤ 1 then .char (Char.ofNat bits)
    else .more ⟨p.owed - 1, 0x80, 0xBF, bits, p.count + 1⟩

/-! ## Checking a whole list -/

/-- Why bytes are not UTF-8. -/
inductive Fault where
  /-- At `index` stand `length` bytes that no character begins with. -/
  | invalid (length index : Nat)
  /-- The bytes end inside the character that begins at `index`. -/
  | incomplete (index : Nat)
  deriving DecidableEq, Repr

/-- The wording of a fault. -/
def Fault.message : Fault → String
  | .invalid length index => s!"invalid utf-8 sequence of {length} bytes from index {index}"
  | .incomplete index => s!"incomplete utf-8 byte sequence from index {index}"

/-- The first fault of the bytes that follow; the character under way began at `index`. -/
def faultFrom (index : Nat) : Option Pending → Bytes → Option Fault
  | none, [] => none
  | some _, [] => some (.incomplete index)
  | none, b :: s =>
    match start b with
    | .char _ => faultFrom (index + 1) none s
    | .more p => faultFrom index (some p) s
    | .refused => some (.invalid 1 index)
  | some p, b :: s =>
    match p.next b with
    | .char _ => faultFrom (index + p.count + 1) none s
    | .more q => faultFrom index (some q) s
    | .refused => some (.invalid p.count index)

/-- The first fault of a list, `none` exactly when it is UTF-8. -/
def fault? (s : Bytes) : Option Fault := faultFrom 0 none s

/-! ## Reading a whole list -/

/-- What stands for bytes that are no character. -/
def replacement : Char := Char.ofNat 0xFFFD

/-- The character or replacement that a first byte settles, and the character under way after it. -/
def absorbFirst (b : UInt8) : List Char × Option Pending :=
  match start b with
  | .char c => ([c], none)
  | .more p => ([], some p)
  | .refused => ([replacement], none)

/-- The characters that one more byte settles, in order, and the character under way after it. A
byte that the character under way refuses is a first byte. -/
def absorb : Option Pending → UInt8 → List Char × Option Pending
  | none, b => absorbFirst b
  | some p, b =>
    match p.next b with
    | .char c => ([c], none)
    | .more q => ([], some q)
    | .refused => (replacement :: (absorbFirst b).1, (absorbFirst b).2)

/-- The characters of the bytes that follow, in order, after those `done` (held newest first). -/
def lossyFrom (done : List Char) : Option Pending → Bytes → List Char
  | none, [] => done.reverse
  | some _, [] => (replacement :: done).reverse
  | p, b :: s => lossyFrom ((absorb p b).1.reverse ++ done) (absorb p b).2 s

/-- The characters of a list; of a list that is UTF-8, exactly those it encodes. -/
def lossy (s : Bytes) : List Char := lossyFrom [] none s

end RespGateway.Text.Utf8
