import RespGateway.Text.Unprintable

/-!
# Quoted text

A text between double quotes, on one line and readable: quotes and backslashes are
escaped, the usual controls have an escape of one letter, and every other character
that does not print is written as its number in base sixteen.
-/

namespace RespGateway.Text

/-- A character by its number in base sixteen. -/
def escapeNumber (c : Char) : String :=
  "\\u\x7b" ++ String.ofList (Nat.toDigits 16 c.toNat) ++ "\x7d"

/-- A character as it stands between quotes. -/
def escapeChar (c : Char) : String :=
  if c = '"' then "\\\""
  else if c = '\\' then "\\\\"
  else if c = '\n' then "\\n"
  else if c = '\r' then "\\r"
  else if c = '\t' then "\\t"
  else if c.toNat = 0 then "\\0"
  else if isUnprintable c then escapeNumber c
  else c.toString

/-- A text between double quotes. -/
def quoted (s : String) : String := "\"" ++ String.join (s.toList.map escapeChar) ++ "\""

end RespGateway.Text
