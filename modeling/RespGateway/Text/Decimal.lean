import RespGateway.Bytes

/-!
# Decimal integers

An integer is written with the fewest digits and a minus sign where it is negative.
It is read with an optional sign and any number of leading zeros, digit by digit:
the first thing that is wrong decides the fault, so a number that has already left
the range is out of range whatever follows.
-/

namespace RespGateway.Text.Decimal

/-! ## Writing -/

/-- The decimal digits of a natural number. -/
def ofNat (n : Nat) : Bytes := (Nat.toDigits 10 n).map fun c => UInt8.ofNat c.toNat

/-- The decimal text of an integer. -/
def ofInt : Int → Bytes
  | .ofNat n => ofNat n
  | .negSucc n => 45 :: ofNat (n + 1)

/-! ## Reading -/

/-- Why a text is not an integer of the range asked for. -/
inductive Fault where
  | empty
  | invalidDigit
  | tooLarge
  | tooSmall
  deriving DecidableEq, Repr

/-- The wording of a fault. -/
def Fault.message : Fault → String
  | .empty => "cannot parse integer from empty string"
  | .invalidDigit => "invalid digit found in string"
  | .tooLarge => "number too large to fit in target type"
  | .tooSmall => "number too small to fit in target type"

/-- Digits that continue `value`, which stays at most `limit`; past it, the fault is `beyond`. -/
def digits (limit : Nat) (beyond : Fault) (value : Nat) : Bytes → Except Fault Nat
  | [] => .ok value
  | b :: s =>
    if 48 ≤ b ∧ b ≤ 57 then
      let grown := value * 10 + (b.toNat - 48)
      if limit < grown then .error beyond else digits limit beyond grown s
    else .error .invalidDigit

/-- Digits of which there is at least one. -/
def someDigits (limit : Nat) (beyond : Fault) (s : Bytes) : Except Fault Nat :=
  if s.isEmpty then .error .invalidDigit else digits limit beyond 0 s

/-- An integer from `low` to `high`. A minus sign is read only where `low` is negative. -/
def read (low high : Int) : Bytes → Except Fault Int
  | [] => .error .empty
  | b :: s =>
    if b = 45 ∧ low < 0 then (someDigits low.natAbs .tooSmall s).map fun n => -(n : Int)
    else if b = 43 then (someDigits high.toNat .tooLarge s).map Int.ofNat
    else (digits high.toNat .tooLarge 0 (b :: s)).map Int.ofNat

/-- A signed integer of 64 bits. -/
def readInt64 (s : Bytes) : Except Fault Int :=
  read (-9223372036854775808) 9223372036854775807 s

/-- An unsigned integer of 64 bits. -/
def readUInt64 (s : Bytes) : Except Fault Int := read 0 18446744073709551615 s

end RespGateway.Text.Decimal
