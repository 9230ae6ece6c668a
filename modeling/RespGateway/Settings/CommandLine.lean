import RespGateway.Settings
import RespGateway.Text.Decimal
import RespGateway.Text.Utf8

/-!
# The command line

Settings are given as options on the command line, or else as variables of the
environment. An option with a value is written `--name value` or `--name=value`; the
port also has a short form. After `--` nothing is an option any more, and as the
program takes no other arguments, nothing may follow.

Arguments are read from left to right. A value that stands in an argument of its own is
looked at when the next option is reached or the line ends, so an unknown argument right
after it is reported first.
-/

namespace RespGateway.Settings

/-- What can be set. -/
inductive Field where
  | host
  | port
  | limit
  | unordered
  | maxBuffer
  deriving DecidableEq, Repr

namespace Field

/-- Every field once, in the order in which the environment is looked at. -/
def all : List Field := [.host, .port, .limit, .unordered, .maxBuffer]

/-- The name of the option that sets a field. -/
def option : Field → String
  | .host => "host"
  | .port => "port"
  | .limit => "command-timeout-ms"
  | .unordered => "unordered-replies"
  | .maxBuffer => "max-buffer"

/-- The variable of the environment that sets a field. -/
def environmentName : Field → String
  | .host => "FLASHBRIDGE_HOST"
  | .port => "FLASHBRIDGE_PORT"
  | .limit => "FLASHBRIDGE_COMMAND_TIMEOUT_MS"
  | .unordered => "FLASHBRIDGE_UNORDERED_REPLIES"
  | .maxBuffer => "FLASHBRIDGE_MAX_BUFFER"

/-- Whether the option takes a value; one that takes none says yes by being there. -/
def takesValue : Field → Bool
  | .unordered => false
  | _ => true

/-- The field that an option sets. -/
def ofOption? (name : String) : Option Field := all.find? fun f => f.option == name

end Field

/-- Why a command line yields no settings. -/
inductive Stop where
  /-- An argument that is no option and no value of one. -/
  | unknownArgument
  /-- An option that lacks its value, or a value that is none of the values allowed. -/
  | invalidValue
  /-- A value that is not of the kind asked for. -/
  | valueValidation
  /-- A value for an option that takes none. -/
  | tooManyValues
  /-- An option given twice. -/
  | argumentConflict
  /-- The user asks for help. -/
  | help
  /-- The user asks for the version. -/
  | version
  deriving DecidableEq, Repr

/-! ## Values -/

/-- What has been set so far. -/
structure Draft where
  host : Option String := none
  port : Option UInt16 := none
  limit : Option Nat := none
  unordered : Option Bool := none
  maxBuffer : Option Nat := none
  deriving DecidableEq, Repr

namespace Draft

/-- Whether a field has been set. -/
def has (d : Draft) : Field → Bool
  | .host => d.host.isSome
  | .port => d.port.isSome
  | .limit => d.limit.isSome
  | .unordered => d.unordered.isSome
  | .maxBuffer => d.maxBuffer.isSome

/-- A number of a port. It is read as a signed number and must then be in range. -/
def readPort (text : String) : Except Stop UInt16 :=
  match Text.Decimal.readInt64 (Text.Utf8.ofString text) with
  | .ok n => if 0 ≤ n ∧ n < 65536 then .ok (UInt16.ofNat n.toNat) else .error .valueValidation
  | .error _ => .error .valueValidation

/-- A number of 64 bits without a sign. -/
def readWord (text : String) : Except Stop Nat :=
  match Text.Decimal.readUInt64 (Text.Utf8.ofString text) with
  | .ok n => .ok n.toNat
  | .error _ => .error .valueValidation

/-- A truth value, spelled out. -/
def readBool (text : String) : Except Stop Bool :=
  if text = "true" then .ok true
  else if text = "false" then .ok false
  else .error .invalidValue

/-- Sets a field to the value that a text stands for. -/
def set (d : Draft) (f : Field) (text : String) : Except Stop Draft :=
  match f with
  | .host => .ok { d with host := some text }
  | .port => (readPort text).map fun n => { d with port := some n }
  | .limit => (readWord text).map fun n => { d with limit := some n }
  | .unordered => (readBool text).map fun b => { d with unordered := some b }
  | .maxBuffer => (readWord text).map fun n => { d with maxBuffer := some n }

/-- The settings; a field that has not been set is as usual. A limit of zero is none. -/
def settings (d : Draft) : Settings :=
  let usual : Settings := {}
  { host := d.host.getD usual.host
    port := d.port.getD usual.port
    limit := match d.limit with
      | none => usual.limit
      | some 0 => none
      | some n => some n
    ordered := (d.unordered.map (!·)).getD usual.ordered
    maxBuffer := d.maxBuffer.getD usual.maxBuffer }

end Draft

/-! ## Arguments -/

/-- What an argument looks like. -/
inductive Argument where
  /-- Two dashes alone. -/
  | endOfOptions
  /-- An option by its name, with what follows an equals sign. -/
  | long (name : String) (value : Option String)
  /-- Options by single letters. -/
  | short (letters : List Char)
  | plain (text : String)
  deriving DecidableEq, Repr

/-- What an argument looks like. -/
def Argument.ofString (s : String) : Argument :=
  match s.toList with
  | ['-', '-'] => .endOfOptions
  | '-' :: '-' :: cs =>
    .long (String.ofList (cs.takeWhile (· != '=')))
      ((cs.dropWhile (· != '=')).tail?.map String.ofList)
  | '-' :: c :: cs => .short (c :: cs)
  | _ => .plain s

/-- How far a command line has been read. -/
structure Reading where
  draft : Draft := {}
  /-- An option that stood without a value in its own argument, and the value that followed it. -/
  pending : Option (Field × Option String) := none
  /-- Whether the options have ended. -/
  ended : Bool := false
  deriving DecidableEq, Repr

namespace Reading

/-- Sets a field by an option. -/
def assign (r : Reading) (f : Field) (text : String) : Except Stop Reading :=
  if r.draft.has f then .error .argumentConflict
  else (r.draft.set f text).map fun draft => { r with draft }

/-- Looks at the value of the option that is pending. -/
def settle (r : Reading) : Except Stop Reading :=
  match r.pending with
  | none => .ok r
  | some (_, none) => .error .invalidValue
  | some (f, some text) => { r with pending := none }.assign f text

/-- An option with a value, or with one yet to come. -/
def option (r : Reading) (f : Field) (value : Option String) : Except Stop Reading := do
  let r ← r.settle
  match value with
  | some text => r.assign f text
  | none => .ok { r with pending := some (f, none) }

/-- An option that takes no value. -/
def flag (r : Reading) (f : Field) : Except Stop Reading := do (← r.settle).assign f "true"

/-- A request that ends the reading. -/
def stop (r : Reading) (why : Stop) : Except Stop Reading := do
  let _ ← r.settle
  .error why

/-- An option by its name. -/
def long (r : Reading) (name : String) (value : Option String) : Except Stop Reading :=
  match Field.ofOption? name with
  | some f =>
    if f.takesValue then r.option f value
    else if value.isSome then .error .tooManyValues
    else r.flag f
  | none =>
    if name = "help" ∨ name = "version" then
      if value.isSome then .error .tooManyValues
      else r.stop (if name = "help" then .help else .version)
    else .error .unknownArgument

/-- Options by single letters. What follows the letter of an option that takes a value is its
value, with or without an equals sign between them. -/
def short (r : Reading) : List Char → Except Stop Reading
  | 'p' :: [] => r.option .port none
  | 'p' :: '=' :: value => r.option .port (some (String.ofList value))
  | 'p' :: value => r.option .port (some (String.ofList value))
  | 'h' :: _ => r.stop .help
  | 'V' :: _ => r.stop .version
  | _ => .error .unknownArgument

/-- One more argument. -/
def step (r : Reading) (argument : String) : Except Stop Reading :=
  if r.ended then .error .unknownArgument
  else
    match Argument.ofString argument with
    | .endOfOptions => .ok { r with ended := true }
    | .long name value => r.long name value
    | .short letters => r.short letters
    | .plain text =>
      match r.pending with
      | some (f, none) => .ok { r with pending := some (f, some text) }
      | _ => .error .unknownArgument

end Reading

/-- A field that has not been set is set by its variable, if there is one. -/
def Draft.consult (environment : String → Option String) (d : Draft) (f : Field) :
    Except Stop Draft :=
  match d.has f, environment f.environmentName with
  | false, some text => d.set f text
  | _, _ => .ok d

/-- The settings that a command line and an environment give. -/
def ofCommandLine (arguments : List String) (environment : String → Option String) :
    Except Stop Settings := do
  let reading ← arguments.foldlM Reading.step {}
  let reading ← reading.settle
  let draft ← Field.all.foldlM (Draft.consult environment) reading.draft
  .ok draft.settings

end RespGateway.Settings
