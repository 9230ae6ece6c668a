import RespGateway.Text.Utf8

/-!
# Commands

The commands that the gateway knows, their names and how many arguments each takes. A
name is recognised in any mix of upper and lower case ASCII letters.
-/

namespace RespGateway

/-! ## How many arguments -/

/-- How many arguments a command takes, its name not counted. -/
inductive Arity where
  | exact (count : Nat)
  | atLeast (count : Nat)
  | range (min max : Nat)
  deriving DecidableEq, Repr

/-- Whether a number of arguments is allowed. -/
def Arity.accepts : Arity → Nat → Bool
  | .exact n, count => count == n
  | .atLeast n, count => decide (n ≤ count)
  | .range min max, count => decide (min ≤ count ∧ count ≤ max)

/-! ## The commands -/

/-- The commands by name. -/
inductive Command where
  | ping
  | echo
  | quit
  | get
  | set
  | getSet
  | del
  | exist
  | append
  | strlen
  | incr
  | decr
  | mGet
  | mSet
  | dbSize
  | flushDb
  deriving DecidableEq, Repr

namespace Command

/-- Every command once. -/
def all : List Command :=
  [.ping, .echo, .quit, .get, .set, .getSet, .del, .exist, .append, .strlen, .incr, .decr, .mGet,
    .mSet, .dbSize, .flushDb]

/-- The name of a command in upper case. -/
def name : Command → String
  | .ping => "PING"
  | .echo => "ECHO"
  | .quit => "QUIT"
  | .get => "GET"
  | .set => "SET"
  | .getSet => "GETSET"
  | .del => "DEL"
  | .exist => "EXISTS"
  | .append => "APPEND"
  | .strlen => "STRLEN"
  | .incr => "INCR"
  | .decr => "DECR"
  | .mGet => "MGET"
  | .mSet => "MSET"
  | .dbSize => "DBSIZE"
  | .flushDb => "FLUSHDB"

/-- How many arguments a command takes. -/
def arity : Command → Arity
  | .ping => .range 0 1
  | .echo => .exact 1
  | .quit => .exact 0
  | .get => .exact 1
  | .set => .exact 2
  | .getSet => .exact 2
  | .del => .atLeast 1
  | .exist => .atLeast 1
  | .append => .exact 2
  | .strlen => .exact 1
  | .incr => .exact 1
  | .decr => .exact 1
  | .mGet => .atLeast 1
  | .mSet => .atLeast 2
  | .dbSize => .exact 0
  | .flushDb => .exact 0

/-- An ASCII letter in upper case; any other byte as it is. -/
def upper (b : UInt8) : UInt8 := if 97 ≤ b ∧ b ≤ 122 then b - 32 else b

/-- The command with a name, ASCII letters taken without regard to case. -/
def ofName? (name : Bytes) : Option Command :=
  all.find? fun c => Text.Utf8.ofString c.name == name.map upper

end Command

end RespGateway
