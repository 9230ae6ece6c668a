import RespGateway.Gateway.State
import RespGateway.Proofs.Transcript

/-!
# What comes of a command

A command that is taken on makes at most one call, on behalf of the client that sent it,
and ends with exactly one reply, whatever the callee does: `launch_land` says that the
end is an exchange with its reply, and `launch_ends` that there is an end as soon as
every call ends or is given up.

The properties of callees that later results ask for are stated here:
`Gateway.AlwaysEnds` and `Gateway.KeepsCommands`.
-/

namespace RespGateway

/-! ## Exchanges that are opened by requests -/

theorem Exchange.decode_ok {client : UInt64} {arguments : List Bytes} {x : Exchange}
    (h : Exchange.decode client arguments = .ok x) :
    x.client = client ∧ x.response = none ∧
      ∃ name, arguments = name :: x.args ∧ Command.ofName? name = some x.command ∧
        x.command.arity.accepts x.args.length = true := by
  unfold Exchange.decode at h
  split at h
  · cases h
  · rename_i name args
    split at h
    · cases h
    · rename_i command hname
      split at h
      · rename_i harity
        cases h
        exact ⟨rfl, rfl, name, rfl, hname, harity⟩
      · cases h

/-- A request asks to quit exactly if it opens an exchange with the command `QUIT`. -/
theorem asksToQuit_of_ok {client : UInt64} {arguments : List Bytes} {x : Exchange}
    (h : Exchange.decode client arguments = .ok x) :
    asksToQuit arguments = true ↔ x.command = .quit := by
  obtain ⟨-, -, name, rfl, hname, harity⟩ := Exchange.decode_ok h
  constructor
  · intro hquit
    cases hargs : x.args with
    | nil =>
        rw [hargs] at hquit
        simpa [asksToQuit, hname] using hquit
    | cons arg args =>
        rw [hargs] at hquit
        cases hquit
  · intro hquit
    rw [hquit] at harity
    have hnil : x.args = [] := by simpa [Command.arity, Arity.accepts] using harity
    simp [asksToQuit, hnil, hname, hquit]

theorem asksToQuit_of_error {client : UInt64} {arguments : List Bytes} {why : Exchange.Refusal}
    (h : Exchange.decode client arguments = .error why) : asksToQuit arguments = false := by
  cases hquit : asksToQuit arguments with
  | false => rfl
  | true =>
      unfold asksToQuit at hquit
      split at hquit
      · rename_i name
        have hname : Command.ofName? name = some .quit := by simpa using hquit
        simp [Exchange.decode, hname, Command.arity, Arity.accepts] at h
      · cases hquit

/-! ## Callees -/

/-- Every call ends, or is given up after the time limit. -/
def Gateway.AlwaysEnds (g : Gateway) : Prop :=
  (∀ command handler, g.routes.lookup command = some handler →
      ∀ ticket x, (handler.act ticket x).course g.limit ≠ .endless) ∧
    ∀ ticket q, (g.backend.act ticket q).course g.limit ≠ .endless

/-- What a handler returns has the command that the handler was given. -/
def Gateway.KeepsCommands (g : Gateway) : Prop :=
  ∀ command handler, g.routes.lookup command = some handler →
    ∀ ticket x delay y, handler.act ticket x = .ends delay (.returned y) → y.command = x.command

/-- The client on whose behalf a call is made. -/
def Call.client : Call → UInt64
  | .handler _ _ x => x.client
  | .backend q => q.client

theorem query?_client {x : Exchange} {q : Cache.Query} (h : x.query? = some q) :
    q.client = x.client := by
  obtain ⟨operation, -, rfl⟩ := Option.map_eq_some_iff.mp h
  cases operation <;> rfl

theorem course_ended {ε α : Type} {limit : Option Nat} {a : Attempt ε α} {after : Nat}
    {ending : Ending ε α} (h : a.course limit = .ended after ending) :
    a = .ends after ending := by
  unfold Attempt.course at h
  split at h
  · cases h; rfl
  · cases h
  · cases h
  · split at h
    · cases h; rfl
    · cases h
  · cases h

theorem respond_of_none {x : Exchange} (h : x.response = none) (r : Reply) :
    x.respond r = .ok { x with response := some r } := by
  unfold Exchange.respond
  rw [h]

/-! ## Calls -/

/-- **Every call is made on behalf of the client that sent the command.** -/
theorem launch_call_client {g : Gateway} {ticket : Nat} {x : Exchange} {call : Call}
    (h : (g.launch ticket x).call = some call) : call.client = x.client := by
  unfold Gateway.launch at h
  split at h
  · rename_i handler hroute
    unfold Gateway.launchHandler at h
    split at h <;> cases h <;> rfl
  · split at h
    · rename_i q hq
      unfold Gateway.launchQuery at h
      split at h <;> cases h <;> exact query?_client hq
    · cases h

/-! ## Ends -/

/-- How a command of an exchange ends. -/
inductive Outcome (g : Gateway) (x : Exchange) : Landing → Prop where
  /-- It ends with an error in place of what a callee returns. -/
  | failed (text : String) : Outcome g x (.reply (.failed x.command x.client text))
  /-- It ends with what a handler returned. -/
  | returned {handler : Handler} {ticket delay : Nat} {y : Exchange} :
      g.routes.lookup x.command = some handler →
      handler.act ticket x = .ends delay (.returned y) → y.response.isSome = true →
      Outcome g x (.reply y)
  /-- It ends with a reply that no callee has a part in, or a fixed one. -/
  | answer (r : Reply) : Outcome g x (.answer x r)
  /-- It ends with the answer of the store. -/
  | serve {q : Cache.Query} : x.query? = some q → Outcome g x (.serve x q)

theorem launchHandler_outcome {g : Gateway} {handler : Handler} {ticket : Nat} {x : Exchange}
    {moment : Moment} {landing : Landing} (hroute : g.routes.lookup x.command = some handler)
    (h : (g.launchHandler handler ticket x).outcome = some (moment, landing)) :
    Outcome g x landing := by
  unfold Gateway.launchHandler at h
  split at h
  · cases h
    exact .failed _
  · cases h
    exact .failed _
  · rename_i after ending hcourse
    cases h
    cases ending with
    | returned y =>
        simp only [Gateway.handedBack]
        split
        · rename_i hsome
          exact .returned hroute (course_ended hcourse) hsome
        · exact .failed _
    | failed why => exact .failed _
    | crashed text => exact .failed _
  · cases h

theorem launchQuery_outcome {g : Gateway} {q : Cache.Query} {ticket : Nat} {x : Exchange}
    {moment : Moment} {landing : Landing} (hq : x.query? = some q)
    (h : (g.launchQuery q ticket x).outcome = some (moment, landing)) : Outcome g x landing := by
  unfold Gateway.launchQuery at h
  split at h
  · cases h
    exact .answer _
  · cases h
    exact .answer _
  · rename_i after ending hcourse
    cases h
    cases ending with
    | returned source =>
        cases source with
        | store => exact .serve hq
        | fixed answer => exact .answer _
    | failed why => exact .answer _
    | crashed text => exact .answer _
  · cases h

theorem launch_outcome {g : Gateway} {ticket : Nat} {x : Exchange} {moment : Moment}
    {landing : Landing} (h : (g.launch ticket x).outcome = some (moment, landing)) :
    Outcome g x landing := by
  unfold Gateway.launch at h
  split at h
  · rename_i handler hroute
    exact launchHandler_outcome hroute h
  · split at h
    · rename_i q hq
      exact launchQuery_outcome hq h
    · cases h
      exact .answer _

/-- **A command ends with one exchange that has its reply**, under its own command unless a handler
changes that. -/
theorem Outcome.land {g : Gateway} {x : Exchange} {landing : Landing} (h : Outcome g x landing)
    (hx : x.response = none) (s : Store) :
    ∃ y, (landing.land s).1 = .ok y ∧ y.response.isSome = true ∧
      (g.KeepsCommands → y.command = x.command) := by
  cases h with
  | failed text => exact ⟨_, rfl, rfl, fun _ => rfl⟩
  | @returned handler ticket delay y hroute hact hsome =>
      exact ⟨y, rfl, hsome, fun hkeeps => hkeeps _ _ hroute ticket x delay y hact⟩
  | answer r => exact ⟨_, respond_of_none hx r, rfl, fun _ => rfl⟩
  | @serve q hq => exact ⟨_, respond_of_none hx _, rfl, fun _ => rfl⟩

theorem launch_ends {g : Gateway} (h : g.AlwaysEnds) (ticket : Nat) (x : Exchange) :
    ∃ moment landing, (g.launch ticket x).outcome = some (moment, landing) := by
  unfold Gateway.launch
  split
  · rename_i handler hroute
    unfold Gateway.launchHandler
    split
    · exact ⟨_, _, rfl⟩
    · exact ⟨_, _, rfl⟩
    · exact ⟨_, _, rfl⟩
    · rename_i hendless
      exact absurd hendless (h.1 _ _ hroute ticket x)
  · split
    · rename_i q hq
      unfold Gateway.launchQuery
      split
      · exact ⟨_, _, rfl⟩
      · exact ⟨_, _, rfl⟩
      · exact ⟨_, _, rfl⟩
      · rename_i hendless
        exact absurd hendless (h.2 ticket q)
    · exact ⟨_, _, rfl⟩

/-! ## A gateway with no callees but its own -/

/-- The routes of a gateway with no handlers but its own. -/
def Routes.own : Routes :=
  ⟨fun command => if command ∈ Handler.connection.commands then some .connection else none⟩

theorem builtIn_eq : Routes.builtIn = .ok .own := rfl

/-- The handlers of a gateway are the built-in ones and its backend is the store. -/
structure Gateway.Plain (g : Gateway) : Prop where
  routes : Routes.builtIn = .ok g.routes
  backend : g.backend = .plain

theorem course_ends {ε α : Type} (limit : Option Nat) (delay : Nat) (ending : Ending ε α) :
    (Attempt.ends delay ending).course limit ≠ .endless := by
  unfold Attempt.course
  split
  · simp
  · rename_i heq
    cases heq
  · simp
  · split <;> simp
  · rename_i heq
    cases heq

theorem connection_ends (ticket : Nat) (x : Exchange) :
    ∃ ending, Handler.connection.act ticket x = .ends 0 ending ∧
      ∀ y, ending = .returned y →
        ∃ r, Handler.connectionReply x = .ok r ∧ y = { x with response := some r } := by
  simp only [Handler.connection]
  cases hr : Handler.connectionReply x with
  | error why => exact ⟨_, rfl, by simp⟩
  | ok r =>
      simp only [Handler.answering, Exchange.respond]
      cases hx : x.response with
      | some r' => exact ⟨_, rfl, by simp⟩
      | none =>
          refine ⟨_, rfl, ?_⟩
          intro y hy
          cases hy
          exact ⟨r, rfl, rfl⟩

namespace Gateway.Plain

variable {g : Gateway}

theorem lookup (h : g.Plain) (command : Command) :
    g.routes.lookup command =
      if command ∈ Handler.connection.commands then some .connection else none := by
  have hroutes : .own = g.routes := Except.ok.inj (builtIn_eq.symm.trans h.routes)
  rw [← hroutes]
  rfl

theorem lookup_some (h : g.Plain) {command : Command} {handler : Handler}
    (hroute : g.routes.lookup command = some handler) : handler = .connection := by
  rw [h.lookup] at hroute
  split at hroute
  · exact (Option.some.inj hroute).symm
  · cases hroute

theorem alwaysEnds (h : g.Plain) : g.AlwaysEnds := by
  constructor
  · intro command handler hroute ticket x
    obtain rfl := h.lookup_some hroute
    obtain ⟨ending, hact, -⟩ := connection_ends ticket x
    rw [hact]
    exact course_ends _ _ _
  · intro ticket q
    rw [h.backend]
    exact course_ends _ _ _

theorem keepsCommands (h : g.Plain) : g.KeepsCommands := by
  intro command handler hroute ticket x delay y hact
  obtain rfl := h.lookup_some hroute
  obtain ⟨ending, hends, hreturned⟩ := connection_ends ticket x
  rw [hends] at hact
  cases hact
  obtain ⟨r, -, rfl⟩ := hreturned y rfl
  rfl

end Gateway.Plain

end RespGateway
