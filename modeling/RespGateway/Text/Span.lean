/-!
# Spans of time

A span is written in the largest of its units that leaves a whole number in front of
the point: seconds from a second on, milliseconds below. A fraction of a second has no
trailing zeros.
-/

namespace RespGateway.Text

/-- A fraction of a thousand, after the point and without trailing zeros. -/
def thousandths (n : Nat) : String :=
  let three := [Nat.digitChar (n / 100), Nat.digitChar (n / 10 % 10), Nat.digitChar (n % 10)]
  String.ofList (three.reverse.dropWhile (· == '0')).reverse

/-- A number of milliseconds as a span of time. -/
def span (milliseconds : Nat) : String :=
  if milliseconds = 0 then "0ns"
  else if milliseconds < 1000 then toString milliseconds ++ "ms"
  else if milliseconds % 1000 = 0 then toString (milliseconds / 1000) ++ "s"
  else toString (milliseconds / 1000) ++ "." ++ thousandths (milliseconds % 1000) ++ "s"

end RespGateway.Text
