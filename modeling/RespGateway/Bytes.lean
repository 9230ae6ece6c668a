/-!
# Bytes

What travels between a client and the gateway is a list of bytes. Lines end with
CRLF; `line?` cuts the first line off a list, and is the only place where a line
end is looked for.
-/

namespace RespGateway

/-- What a client sends and what it is sent. -/
abbrev Bytes := List UInt8

namespace Bytes

/-- The end of a line: carriage return, line feed. -/
def crlf : Bytes := [13, 10]

/-- The index of the first CRLF, counted from `n`. -/
def crlfFrom (n : Nat) : Bytes → Option Nat
  | [] => none
  | b :: s => if b = 13 ∧ s.head? = some 10 then some n else crlfFrom (n + 1) s

/-- The first line without its CRLF, and what follows it; `none` while no line has ended. -/
def line? (s : Bytes) : Option (Bytes × Bytes) :=
  (crlfFrom 0 s).map fun n => (s.take n, s.drop (n + 2))

end Bytes

end RespGateway
