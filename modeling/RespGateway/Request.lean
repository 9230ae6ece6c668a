import RespGateway.Text.Utf8
import RespGateway.Text.Blank
import RespGateway.Text.Decimal

/-!
# Requests

A client sends a request as a list of arguments, the command name first, in one of
two forms:

* an **array**: `*`, the number of arguments, CRLF, and for each argument `$`, its
  length, CRLF, its bytes, CRLF;
* an **inline** line of words separated by blanks.

`Request.decode` looks at the front of what has arrived. It finds a complete request
and says how many bytes it took, or it needs more bytes, or no bytes that could follow
would make a request.
-/

namespace RespGateway.Request

/-- The most arguments that an array may announce. -/
def maxArgs : Nat := 1048576

/-- The longest argument that an array may announce. -/
def maxBulk : Nat := 536870912

/-- Why bytes do not begin a request. -/
inductive Fault where
  /-- A count or a length is not an integer. -/
  | integer (why : Text.Decimal.Fault)
  /-- A count, a length or an inline line is not UTF-8. -/
  | utf8 (why : Text.Utf8.Fault)
  /-- The length of an argument is negative. -/
  | bulkLength (length : Int)
  /-- The number of arguments is not positive. -/
  | arrayLength (count : Int)
  /-- An argument begins with a byte other than `$`. -/
  | unexpectedElement (byte : UInt8)
  /-- The bytes of an argument do not end where its length says. -/
  | unterminatedBulk
  /-- An inline line without a word. -/
  | emptyInline
  /-- A count or a length is above its limit. -/
  | tooLarge (size limit : Nat)
  deriving DecidableEq, Repr

/-- The two digits of a byte in base sixteen. -/
def hexByte (b : UInt8) : String :=
  String.ofList [Nat.digitChar (b.toNat / 16), Nat.digitChar (b.toNat % 16)]

/-- The wording of a fault. -/
def Fault.message : Fault → String
  | .integer why => "invalid integer: " ++ why.message
  | .utf8 why => "invalid UTF-8: " ++ why.message
  | .bulkLength length => "invalid bulk string length: " ++ toString length
  | .arrayLength count => "invalid array length: " ++ toString count
  | .unexpectedElement byte => "unexpected element type: 0x" ++ hexByte byte
  | .unterminatedBulk => "protocol error: bulk string missing trailing CRLF"
  | .emptyInline => "protocol error: empty inline command"
  | .tooLarge size limit => s!"message too large: {size} bytes (max: {limit})"

/-! ## Reading from the front -/

/-- Reading one part from the front of what has arrived. -/
inductive Progress (α : Type) where
  /-- The part, and the bytes after it. -/
  | done (part : α) (rest : Bytes)
  /-- The part goes on beyond what has arrived. -/
  | more
  /-- There is no such part here. -/
  | bad (fault : Fault)
  deriving Repr

/-- A second part after a first. -/
def Progress.andThen {α β : Type} (p : Progress α) (next : α → Bytes → Progress β) : Progress β :=
  match p with
  | .done a rest => next a rest
  | .more => .more
  | .bad fault => .bad fault

/-- A line, if it is UTF-8. -/
def textLine (s : Bytes) : Progress Bytes :=
  match s.line? with
  | none => .more
  | some (text, rest) =>
    match Text.Utf8.fault? text with
    | some why => .bad (.utf8 why)
    | none => .done text rest

/-- A line that holds an integer. -/
def integerLine (s : Bytes) : Progress Int :=
  (textLine s).andThen fun text rest =>
    match Text.Decimal.readInt64 text with
    | .error why => .bad (.integer why)
    | .ok n => .done n rest

/-- The `n` bytes of an argument and the CRLF after them. -/
def bulkBody (n : Nat) (s : Bytes) : Progress Bytes :=
  match s.drop n with
  | [] => .more
  | [_] => .more
  | a :: b :: rest => if a = 13 ∧ b = 10 then .done (s.take n) rest else .bad .unterminatedBulk

/-- The length of an argument, and then its bytes. -/
def bulk (s : Bytes) : Progress Bytes :=
  (integerLine s).andThen fun length rest =>
    if length < 0 then .bad (.bulkLength length)
    else if maxBulk < length.toNat then .bad (.tooLarge length.toNat maxBulk)
    else bulkBody length.toNat rest

/-- One argument of an array. -/
def element : Bytes → Progress Bytes
  | [] => .more
  | b :: s => if b = 36 then bulk s else .bad (.unexpectedElement b)

/-- A number of arguments, one after another. -/
def elements : Nat → Bytes → Progress (List Bytes)
  | 0, s => .done [] s
  | n + 1, s =>
    (element s).andThen fun arg rest =>
      (elements n rest).andThen fun args rest => .done (arg :: args) rest

/-- The number of arguments, and then the arguments. -/
def array (s : Bytes) : Progress (List Bytes) :=
  (integerLine s).andThen fun count rest =>
    if count ≤ 0 then .bad (.arrayLength count)
    else if maxArgs < count.toNat then .bad (.tooLarge count.toNat maxArgs)
    else elements count.toNat rest

/-- The words of a line. -/
def inline (s : Bytes) : Progress (List Bytes) :=
  (textLine s).andThen fun text rest =>
    match Text.words (Text.Utf8.lossy text) with
    | [] => .bad .emptyInline
    | w :: ws => .done ((w :: ws).map Text.Utf8.encode) rest

/-- The arguments of the request at the front. -/
def args : Bytes → Progress (List Bytes)
  | [] => .more
  | b :: s => if b = 42 then array s else inline (b :: s)

/-! ## Decoding -/

/-- What stands at the front of the bytes that have arrived. -/
inductive Verdict where
  /-- A request that took `consumed` bytes. -/
  | complete (args : List Bytes) (consumed : Nat)
  /-- The beginning of a request. -/
  | incomplete
  /-- Nothing that is or could become a request. -/
  | malformed (fault : Fault)
  deriving DecidableEq, Repr

/-- The request at the front of the bytes that have arrived. -/
def decode (s : Bytes) : Verdict :=
  match args s with
  | .done args rest => .complete args (s.length - rest.length)
  | .more => .incomplete
  | .bad fault => .malformed fault

end RespGateway.Request
