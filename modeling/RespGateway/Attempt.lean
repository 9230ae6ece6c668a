/-!
# Attempts

Whatever the gateway calls may return, fail or break down, at once or after a while,
or never. An `Attempt` says which; its `course` under a time limit says what the
caller sees of it. Times are in milliseconds.
-/

namespace RespGateway

/-- How a call ends. -/
inductive Ending (ε α : Type) where
  | returned (value : α)
  | failed (why : ε)
  | crashed (text : String)
  deriving DecidableEq, Repr

/-- What a call does. -/
inductive Attempt (ε α : Type) where
  /-- It ends after a delay. -/
  | ends (delay : Nat) (ending : Ending ε α)
  /-- It never ends. -/
  | hangs
  deriving DecidableEq, Repr

/-- What the caller sees of a call. -/
inductive Course (ε α : Type) where
  /-- The call is given up before it begins. -/
  | withheld
  /-- The call ends in time. -/
  | ended (after : Nat) (ending : Ending ε α)
  /-- The call is given up while it is under way. -/
  | late (after : Nat)
  /-- The caller waits for ever. -/
  | endless
  deriving DecidableEq, Repr

/-- The course of a call under a time limit. A call that would end at the very limit is late, and
a limit of zero leaves no time to begin: that is so while the clock stands still, whereas on a clock
that runs the call may still begin and then be given up. -/
def Attempt.course {ε α : Type} (limit : Option Nat) (a : Attempt ε α) : Course ε α :=
  match limit, a with
  | none, .ends delay ending => .ended delay ending
  | none, .hangs => .endless
  | some 0, _ => .withheld
  | some (n + 1), .ends delay ending => if delay < n + 1 then .ended delay ending else .late (n + 1)
  | some (n + 1), .hangs => .late (n + 1)

end RespGateway
