import RespGateway.Handler
import RespGateway.Text.Quoted

/-!
# Routes

Which handler serves which command. Handlers are registered one after another, each
for all the commands it claims; a command that two handlers claim refuses the second.
-/

namespace RespGateway

/-- The handler of each command, if it has one. -/
structure Routes where
  lookup : Command → Option Handler

namespace Routes

/-- No command has a handler. -/
def empty : Routes := ⟨fun _ => none⟩

/-- Two handlers claim one command. -/
structure Clash where
  command : Command
  /-- The name of the handler that has the command. -/
  existing : String
  /-- The name of the handler that is refused. -/
  rejected : String
  deriving DecidableEq, Repr

/-- The wording of a clash. -/
def Clash.message (c : Clash) : String :=
  "command " ++ c.command.name ++ " is claimed by both '" ++ c.existing ++ "' and '" ++
    c.rejected ++ "'"

/-- The first of the commands that already has a handler. -/
def taken? (r : Routes) (commands : List Command) : Option (Command × Handler) :=
  commands.findSome? fun command => (r.lookup command).map fun handler => (command, handler)

/-- Registers a handler for all its commands, or for none. -/
def register (r : Routes) (h : Handler) : Except Clash Routes :=
  match r.taken? h.commands with
  | some (command, existing) => .error ⟨command, existing.name, h.name⟩
  | none => .ok ⟨fun command => if command ∈ h.commands then some h else r.lookup command⟩

/-- Registers handlers in order. -/
def ofHandlers (handlers : List Handler) : Except Clash Routes := handlers.foldlM register empty

/-- Registers handlers in order; a refusal tells the position of the refused handler, counted from
`position`. -/
def registerFrom (position : Nat) (r : Routes) : List Handler → Except (Nat × Clash) Routes
  | [] => .ok r
  | h :: handlers =>
    match r.register h with
    | .ok r => registerFrom (position + 1) r handlers
    | .error clash => .error (position, clash)

/-- The routes of a gateway with no handlers but its own. -/
def builtIn : Except Clash Routes := ofHandlers [.connection]

/-- The commands that have a handler, each with the name of its handler. -/
def entries (r : Routes) : List (Command × String) :=
  Command.all.filterMap fun command => (r.lookup command).map fun h => (command, h.name)

/-- How many commands have a handler. -/
def size (r : Routes) : Nat := r.entries.length

/-- Whether no command has a handler. -/
def isEmpty (r : Routes) : Bool := r.size == 0

/-- The routes in one line, in the order of the names of the commands. -/
def summary (r : Routes) : String :=
  let sorted := r.entries.mergeSort fun a b => a.1.name ≤ b.1.name
  let shown := sorted.map fun (command, handler) =>
    "(" ++ Text.quoted command.name ++ ", " ++ Text.quoted handler ++ ")"
  "HandlerRegistry \x7b handlers: [" ++ String.intercalate ", " shown ++ "] \x7d"

end Routes

end RespGateway
