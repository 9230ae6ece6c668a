import RespGateway.Attempt
import RespGateway.Cache

/-!
# Backends

What the gateway asks when a command goes to the cache. A backend may leave a query to
the gateway's own store or answer it in another way, and like any callee it may fail,
break down, take its time or hang.
-/

namespace RespGateway

/-- The cache cannot be reached. -/
structure Backend.Unavailable where
  reason : String
  deriving DecidableEq, Repr

/-- The wording of a cache out of reach; clients are not told. -/
def Backend.Unavailable.message (u : Backend.Unavailable) : String :=
  "cache executor unavailable: " ++ u.reason

/-- Where the answer to a query comes from when the call ends. -/
inductive Backend.Source where
  /-- The store answers, as it is at that moment. -/
  | store
  /-- The answer is fixed. -/
  | fixed (answer : Cache.Answer)
  deriving DecidableEq, Repr

/-- What answers queries. As with handlers, what it does may depend on the ticket of the call. -/
structure Backend where
  act : Nat → Cache.Query → Attempt Backend.Unavailable Backend.Source

/-- The store, at once. -/
def Backend.plain : Backend := ⟨fun _ _ => .ends 0 (.returned .store)⟩

end RespGateway
