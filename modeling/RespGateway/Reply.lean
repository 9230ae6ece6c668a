import RespGateway.Text.Utf8
import RespGateway.Text.Decimal

/-!
# Replies

What a client is sent. Each reply has one wire form: a status, error or integer is one
line, a bulk string is a line with its length and then its bytes. The text of a status
or an error is written as it stands.
-/

namespace RespGateway

/-- A reply to a client. -/
inductive Reply where
  /-- A status line. -/
  | simple (text : String)
  /-- An error line. -/
  | error (text : String)
  | integer (value : Int64)
  | bulk (data : Bytes)
  /-- The absence of a value. -/
  | nil
  deriving DecidableEq, Repr

namespace Reply

/-- The status of a success with nothing to tell. -/
def ok : Reply := .simple "OK"

/-- The answer to a sign of life. -/
def pong : Reply := .simple "PONG"

/-- An error of no special class. -/
def generic (text : String) : Reply := .error ("ERR " ++ text)

/-- What a client is told of a command that went wrong, whatever went wrong. -/
def operationError : String := "Operation error!"

/-- What a client is told of a command that nothing serves. -/
def unsupportedOperation : String := "Unsupported operation!"

/-- What a client is told of a command that took too long. -/
def operationTimedOut : String := "Operation timed out!"

/-- A line: its first byte, its content and CRLF. -/
def line (first : UInt8) (content : Bytes) : Bytes := first :: (content ++ Bytes.crlf)

/-- The wire form of a reply. -/
def encode : Reply → Bytes
  | .simple text => line 43 (Text.Utf8.ofString text)
  | .error text => line 45 (Text.Utf8.ofString text)
  | .integer value => line 58 (Text.Decimal.ofInt value.toInt)
  | .bulk data => line 36 (Text.Decimal.ofNat data.length) ++ data ++ Bytes.crlf
  | .nil => line 36 [45, 49]

/-- A line behind what has been written already. -/
def lineOnto (written : Bytes) (first : UInt8) (content : Bytes) : Bytes :=
  written ++ [first] ++ content ++ Bytes.crlf

/-- The wire form of a reply behind what has been written already. -/
def encodeOnto (written : Bytes) : Reply → Bytes
  | .simple text => lineOnto written 43 (Text.Utf8.ofString text)
  | .error text => lineOnto written 45 (Text.Utf8.ofString text)
  | .integer value => lineOnto written 58 (Text.Decimal.ofInt value.toInt)
  | .bulk data => lineOnto written 36 (Text.Decimal.ofNat data.length) ++ data ++ Bytes.crlf
  | .nil => lineOnto written 36 [45, 49]

end Reply

end RespGateway
