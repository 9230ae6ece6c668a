import RespGateway.Backend
import RespGateway.Handler

/-!
# Scripted callees

Handlers and backends that do as they are told, at every call the same. A scripted
handler has one act; a scripted backend has rules, of which the first that fits a
query decides, and leaves to the store every query that no rule fits.
-/

namespace RespGateway

/-! ## Handlers -/

/-- What a scripted handler does. -/
inductive Handler.Act where
  /-- It answers the exchange. -/
  | reply (r : Reply)
  /-- It returns another exchange. -/
  | replace (x : Exchange)
  /-- It returns the exchange as it came. -/
  | silent
  | fail (text : String)
  /-- It fails, as one that does not serve the command. -/
  | unsupported
  | crash
  | hang
  deriving DecidableEq, Repr

/-- A handler that does one thing at every call, after a delay. -/
def Handler.scripted (name : String) (commands : List Command) (delay : Nat) (act : Handler.Act) :
    Handler where
  name
  commands
  act _ x :=
    match act with
    | .reply r => Handler.answering delay x r
    | .replace y => .ends delay (.returned y)
    | .silent => .ends delay (.returned x)
    | .fail text => .ends delay (.failed (.failed text))
    | .unsupported => .ends delay (.failed (.unsupported name x.command))
    | .crash => .ends delay (.crashed "scripted crash")
    | .hang => .hangs

/-! ## Backends -/

/-- What a scripted backend does with a query. -/
inductive Backend.Act where
  /-- It leaves the query to the store. -/
  | store
  | respond (answer : Cache.Answer)
  | fail (text : String)
  | crash
  | hang
  deriving DecidableEq, Repr

/-- What a scripted backend does with the queries that the rule fits. -/
structure Backend.Rule where
  /-- The operation of these queries, if the rule asks for one. -/
  operation : Option Cache.Operation
  /-- What these queries are about, if the rule asks for it. -/
  subject : Option Bytes
  delay : Nat
  act : Backend.Act
  deriving DecidableEq, Repr

/-- Whether a rule decides what is done with a query. -/
def Backend.Rule.fits (r : Backend.Rule) (q : Cache.Query) : Bool :=
  r.operation.all (· == q.operation) && r.subject.all fun key => q.subject? == some key

/-- What a rule does. -/
def Backend.Rule.attempt (r : Backend.Rule) : Attempt Backend.Unavailable Backend.Source :=
  match r.act with
  | .store => .ends r.delay (.returned .store)
  | .respond answer => .ends r.delay (.returned (.fixed answer))
  | .fail text => .ends r.delay (.failed ⟨text⟩)
  | .crash => .ends r.delay (.crashed "scripted crash")
  | .hang => .hangs

/-- A backend with rules. -/
def Backend.scripted (rules : List Backend.Rule) : Backend where
  act ticket q :=
    match rules.find? (·.fits q) with
    | some rule => rule.attempt
    | none => Backend.plain.act ticket q

end RespGateway
