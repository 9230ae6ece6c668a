/-!
# Words

A line of text is cut into words at its blanks. A blank is a character with the
Unicode property `White_Space`, of which there are twenty-five.
-/

namespace RespGateway.Text

/-- The characters with the property `White_Space`. -/
def blanks : List Nat :=
  [0x9, 0xA, 0xB, 0xC, 0xD, 0x20, 0x85, 0xA0, 0x1680, 0x2000, 0x2001, 0x2002, 0x2003, 0x2004,
    0x2005, 0x2006, 0x2007, 0x2008, 0x2009, 0x200A, 0x2028, 0x2029, 0x202F, 0x205F, 0x3000]

/-- A character that separates words. -/
def isBlank (c : Char) : Bool := blanks.contains c.toNat

/-- One more character in front of a text: the word that the text begins with, empty where it
begins with a blank, and the words after it. -/
def prependChar (c : Char) : List Char × List (List Char) → List Char × List (List Char)
  | ([], ws) => if isBlank c then ([], ws) else ([c], ws)
  | (w, ws) => if isBlank c then ([], w :: ws) else (c :: w, ws)

/-- The longest runs of characters that are not blank, in order. -/
def words (cs : List Char) : List (List Char) :=
  match cs.foldr prependChar ([], []) with
  | ([], ws) => ws
  | (w, ws) => w :: ws

end RespGateway.Text
