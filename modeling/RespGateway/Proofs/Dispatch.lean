import RespGateway.Proofs.Launch

/-!
# What comes of one command

A command goes to its handler, to the cache, or nowhere. The call may end well or badly, in
time, too late or never; in all cases the command ends with one exchange that has its
reply. `Ended` is the table of what that exchange is, which calls were made for it and
what became of the store. `launch_ended` derives it for a command that ends at any later
time, `process_ended` for one that is seen through on the spot.

A time limit of zero is a row of its own: it leaves no time to make the call.
-/

namespace RespGateway

/-! ## In time or not -/

/-- A call that takes so long ends before the time limit. -/
def InTime (limit : Option Nat) (delay : Nat) : Prop := ∀ n, limit = some n → delay < n

/-- A call that does not end before the time limit. -/
inductive Overdue {ε α : Type} : Option Nat → Attempt ε α → Prop where
  | late {n delay : Nat} {ending : Ending ε α} : n ≤ delay → Overdue (some n) (.ends delay ending)
  | hung {n : Nat} : Overdue (some n) .hangs

/-- What the caller sees of a call, by what the call does and how long it may take. -/
inductive Seen {ε α : Type} (limit : Option Nat) : Attempt ε α → Course ε α → Prop where
  | withheld {a : Attempt ε α} : limit = some 0 → Overdue limit a → Seen limit a .withheld
  | late {a : Attempt ε α} (after : Nat) : limit ≠ some 0 → Overdue limit a →
      Seen limit a (.late after)
  | ended {delay : Nat} (ending : Ending ε α) : limit ≠ some 0 → InTime limit delay →
      Seen limit (.ends delay ending) (.ended delay ending)
  | endless : limit = none → Seen limit .hangs .endless

theorem course_seen {ε α : Type} (limit : Option Nat) (a : Attempt ε α) :
    Seen limit a (a.course limit) := by
  cases limit with
  | none =>
      cases a with
      | hangs => exact .endless rfl
      | ends delay ending => exact .ended ending (by simp) (fun n hn => nomatch hn)
  | some n =>
      cases n with
      | zero =>
          cases a with
          | hangs => exact .withheld rfl .hung
          | ends delay ending => exact .withheld rfl (.late (Nat.zero_le delay))
      | succ n =>
          cases a with
          | hangs => exact .late _ (by simp) .hung
          | ends delay ending =>
              by_cases hdelay : delay < n + 1
              · have hseen : (Attempt.ends delay ending).course (some (n + 1)) =
                    .ended delay ending := if_pos hdelay
                rw [hseen]
                refine .ended ending (by simp) fun m hm => ?_
                obtain rfl := Option.some.inj hm
                exact hdelay
              · have hseen : (Attempt.ends delay ending).course (some (n + 1)) =
                    .late (n + 1) := if_neg hdelay
                have hlate : n + 1 ≤ delay := by omega
                rw [hseen]
                exact .late _ (by simp) (.late hlate)

/-! ## How a command ends -/

/-- An error in place of what a handler returns, for the same command and client. -/
def Exchange.errorFor (x : Exchange) (text : String) : Exchange :=
  ⟨x.command, x.client, [], some (.error text)⟩

/-- The exchange with which a command ends, by what its handler does. -/
inductive Handled (limit : Option Nat) (x : Exchange) :
    Attempt Handler.Failure Exchange → Exchange → Prop where
  /-- What is returned in time with a reply is passed on as it is. -/
  | verbatim {delay : Nat} {y : Exchange} : InTime limit delay → y.response.isSome = true →
      Handled limit x (.ends delay (.returned y)) y
  | unanswered {delay : Nat} {y : Exchange} : InTime limit delay → y.response = none →
      Handled limit x (.ends delay (.returned y)) (x.errorFor "ERR Operation error!")
  | failed {delay : Nat} {why : Handler.Failure} : InTime limit delay →
      Handled limit x (.ends delay (.failed why)) (x.errorFor "ERR Operation error!")
  | crashed {delay : Nat} {text : String} : InTime limit delay →
      Handled limit x (.ends delay (.crashed text)) (x.errorFor "ERR Operation error!")
  | overdue {a : Attempt Handler.Failure Exchange} : Overdue limit a →
      Handled limit x a (x.errorFor "ERR Operation timed out!")

/-- The reply to a query and what becomes of the store, by what the backend does. -/
inductive Queried (limit : Option Nat) (command : Command) (q : Cache.Query) (s : Store) :
    Attempt Backend.Unavailable Backend.Source → Reply → Store → Prop where
  /-- The store answers, and only then it changes. -/
  | served {delay : Nat} : InTime limit delay →
      Queried limit command q s (.ends delay (.returned .store)) ((s.answer q).1.reply command)
        (s.answer q).2
  | fixed {delay : Nat} {answer : Cache.Answer} : InTime limit delay →
      Queried limit command q s (.ends delay (.returned (.fixed answer))) (answer.reply command) s
  | failed {delay : Nat} {why : Backend.Unavailable} : InTime limit delay →
      Queried limit command q s (.ends delay (.failed why)) (.error "ERR Operation error!") s
  | crashed {delay : Nat} {text : String} : InTime limit delay →
      Queried limit command q s (.ends delay (.crashed text)) (.error "ERR Operation error!") s
  | overdue {a : Attempt Backend.Unavailable Backend.Source} : Overdue limit a →
      Queried limit command q s a (.error "ERR Operation timed out!") s

/-- The calls that are made where one is due: the call once, and none if there is no time to
begin. -/
def Gateway.makes (g : Gateway) (call : Call) : List Call := if g.limit = some 0 then [] else [call]

/-- A command `x` taken on with a ticket makes `calls`, and when it ends with the store `s` it ends
with `y` and leaves the store `s'`. -/
structure Ended (g : Gateway) (ticket : Nat) (x : Exchange) (calls : List Call) (s : Store)
    (y : Exchange) (s' : Store) : Prop where
  /-- A handler is called with the exchange, and the store is left alone. -/
  hit : ∀ handler, g.routes.lookup x.command = some handler →
    calls = g.makes (.handler handler.name handler.builtIn x) ∧
      Handled g.limit x (handler.act ticket x) y ∧ s' = s
  /-- A command that nothing serves is answered without a call. -/
  unsupported : g.routes.lookup x.command = none → x.query? = none →
    calls = [] ∧ y = { x with response := some (.error "ERR Unsupported operation!") } ∧ s' = s
  /-- Any other goes to the backend, and the reply is set on the exchange itself. -/
  queried : ∀ q, g.routes.lookup x.command = none → x.query? = some q →
    calls = g.makes (.backend q) ∧ ∃ r, y = { x with response := some r } ∧
      Queried g.limit x.command q s (g.backend.act ticket q) r s'

/-- The call for a command ends, or there is a time limit. -/
structure Gateway.Finishes (g : Gateway) (ticket : Nat) (x : Exchange) : Prop where
  handler : g.limit = none → ∀ handler, g.routes.lookup x.command = some handler →
    handler.act ticket x ≠ .hangs
  backend : g.limit = none → g.routes.lookup x.command = none → ∀ q, x.query? = some q →
    g.backend.act ticket q ≠ .hangs

variable {g : Gateway} {ticket : Nat} {x : Exchange}

/-- Where every call ends or is given up, that of each command does. -/
theorem Gateway.AlwaysEnds.finishes (h : g.AlwaysEnds) (ticket : Nat) (x : Exchange) :
    g.Finishes ticket x where
  handler := by
    intro hnone handler hroute hact
    refine h.1 _ _ hroute ticket x ?_
    rw [hact, hnone]
    rfl
  backend := by
    intro hnone _ q _ hact
    refine h.2 ticket q ?_
    rw [hact, hnone]
    rfl

/-- Under a time limit every call ends or is given up. -/
theorem Gateway.alwaysEnds_of_limit {n : Nat} (h : g.limit = some n) : g.AlwaysEnds := by
  have hcourse : ∀ {ε α : Type} (a : Attempt ε α), a.course g.limit ≠ .endless := by
    intro ε α a hendless
    have hseen := course_seen g.limit a
    rw [hendless] at hseen
    cases hseen with
    | endless hnone =>
        rw [h] at hnone
        cases hnone
  exact ⟨fun _ _ _ _ _ => hcourse _, fun _ _ => hcourse _⟩

theorem Gateway.makes_of_ne {call : Call} (h : g.limit ≠ some 0) : g.makes call = [call] :=
  if_neg h

theorem Gateway.makes_of_eq {call : Call} (h : g.limit = some 0) : g.makes call = [] := if_pos h

theorem land_answer (hopen : x.response = none) (r : Reply) (s : Store) :
    (Landing.answer x r).land s = (.ok { x with response := some r }, s) := by
  rw [Landing.land, respond_of_none hopen]

theorem land_serve (hopen : x.response = none) (q : Cache.Query) (s : Store) :
    (Landing.serve x q).land s =
      (.ok { x with response := some ((s.answer q).1.reply x.command) }, (s.answer q).2) := by
  simp only [Landing.land, respond_of_none hopen]

/-- What a handler hands back in time is passed on, or stands for an error. -/
theorem handled_ended {limit : Option Nat} {delay : Nat} (hdelay : InTime limit delay)
    (ending : Ending Handler.Failure Exchange) :
    Handled limit x (.ends delay ending) (Gateway.handedBack x ending) := by
  cases ending with
  | returned y =>
      rw [Gateway.handedBack]
      by_cases hy : y.response.isSome = true
      · rw [if_pos hy]
        exact .verbatim hdelay hy
      · rw [if_neg hy]
        exact .unanswered hdelay (by simpa using hy)
  | failed why => exact .failed hdelay
  | crashed text => exact .crashed hdelay

theorem launchHandler_ended {handler : Handler} (hfinishes : g.limit = none →
    handler.act ticket x ≠ .hangs) :
    ∃ moment y, (g.launchHandler handler ticket x).outcome = some (moment, .reply y) ∧
      (g.launchHandler handler ticket x).call.toList =
        g.makes (.handler handler.name handler.builtIn x) ∧
      Handled g.limit x (handler.act ticket x) y := by
  have hseen := course_seen g.limit (handler.act ticket x)
  unfold Gateway.launchHandler
  generalize handler.act ticket x = a at hseen hfinishes ⊢
  generalize a.course g.limit = course at hseen ⊢
  cases hseen with
  | withheld hzero hover =>
      rw [Gateway.makes_of_eq hzero]
      exact ⟨_, _, rfl, rfl, .overdue hover⟩
  | late after hlimit hover =>
      rw [Gateway.makes_of_ne hlimit]
      exact ⟨_, _, rfl, rfl, .overdue hover⟩
  | ended ending hlimit hdelay =>
      rw [Gateway.makes_of_ne hlimit]
      exact ⟨_, _, rfl, rfl, handled_ended hdelay ending⟩
  | endless hnone => exact absurd rfl (hfinishes hnone)

/-- What the backend does in time decides the reply. -/
theorem queried_ended {limit : Option Nat} {delay : Nat} (hdelay : InTime limit delay)
    (hopen : x.response = none) (q : Cache.Query) (s : Store)
    (ending : Ending Backend.Unavailable Backend.Source) :
    ∃ r s', (Gateway.served x q ending).land s = (.ok { x with response := some r }, s') ∧
      Queried limit x.command q s (.ends delay ending) r s' := by
  cases ending with
  | returned source =>
      cases source with
      | store => exact ⟨_, _, land_serve hopen q s, .served hdelay⟩
      | fixed answer => exact ⟨_, s, land_answer hopen _ s, .fixed hdelay⟩
  | failed why => exact ⟨_, s, land_answer hopen _ s, .failed hdelay⟩
  | crashed text => exact ⟨_, s, land_answer hopen _ s, .crashed hdelay⟩

theorem launchQuery_ended {q : Cache.Query} (hopen : x.response = none)
    (hfinishes : g.limit = none → g.backend.act ticket q ≠ .hangs) :
    ∃ moment landing, (g.launchQuery q ticket x).outcome = some (moment, landing) ∧
      (g.launchQuery q ticket x).call.toList = g.makes (.backend q) ∧
      ∀ s, ∃ r s', landing.land s = (.ok { x with response := some r }, s') ∧
        Queried g.limit x.command q s (g.backend.act ticket q) r s' := by
  have hseen := course_seen g.limit (g.backend.act ticket q)
  unfold Gateway.launchQuery
  generalize g.backend.act ticket q = a at hseen hfinishes ⊢
  generalize a.course g.limit = course at hseen ⊢
  have hlate : Overdue g.limit a → ∀ s, ∃ r s',
      (Landing.answer x (.generic Reply.operationTimedOut)).land s =
        (.ok { x with response := some r }, s') ∧
      Queried g.limit x.command q s a r s' := by
    intro hover s
    exact ⟨_, s, land_answer hopen _ s, .overdue hover⟩
  cases hseen with
  | withheld hzero hover =>
      rw [Gateway.makes_of_eq hzero]
      exact ⟨_, _, rfl, rfl, hlate hover⟩
  | late after hlimit hover =>
      rw [Gateway.makes_of_ne hlimit]
      exact ⟨_, _, rfl, rfl, hlate hover⟩
  | ended ending hlimit hdelay =>
      rw [Gateway.makes_of_ne hlimit]
      exact ⟨_, _, rfl, rfl, fun s => queried_ended hdelay hopen q s ending⟩
  | endless hnone => exact absurd rfl (hfinishes hnone)

/-! ### The rows of the table -/

theorem Ended.of_hit {handler : Handler} {calls : List Call} {s : Store} {y : Exchange}
    (hroute : g.routes.lookup x.command = some handler)
    (hcalls : calls = g.makes (.handler handler.name handler.builtIn x))
    (hhandled : Handled g.limit x (handler.act ticket x) y) :
    Ended g ticket x calls s y s where
  hit := by
    intro handler' hhandler
    rw [hroute] at hhandler
    cases hhandler
    exact ⟨hcalls, hhandled, rfl⟩
  unsupported := by
    intro hnone
    rw [hroute] at hnone
    cases hnone
  queried := by
    intro q hnone
    rw [hroute] at hnone
    cases hnone

theorem Ended.of_unsupported {s : Store} (hroute : g.routes.lookup x.command = none)
    (hquery : x.query? = none) :
    Ended g ticket x [] s { x with response := some (.error "ERR Unsupported operation!") } s where
  hit := by
    intro handler hhandler
    rw [hroute] at hhandler
    cases hhandler
  unsupported := fun _ _ => ⟨rfl, rfl, rfl⟩
  queried := by
    intro q _ hq
    rw [hquery] at hq
    cases hq

theorem Ended.of_query {q : Cache.Query} {calls : List Call} {r : Reply} {s s' : Store}
    (hroute : g.routes.lookup x.command = none) (hquery : x.query? = some q)
    (hcalls : calls = g.makes (.backend q))
    (hqueried : Queried g.limit x.command q s (g.backend.act ticket q) r s') :
    Ended g ticket x calls s { x with response := some r } s' where
  hit := by
    intro handler hhandler
    rw [hroute] at hhandler
    cases hhandler
  unsupported := by
    intro _ hnone
    rw [hquery] at hnone
    cases hnone
  queried := by
    intro q' _ hq
    rw [hquery] at hq
    cases hq
    exact ⟨hcalls, r, rfl, hqueried⟩

/-- **Whatever its callee does, a command that is taken on has an end, and its end is the one of the
table**, with the store as it is then. -/
theorem launch_ended (hopen : x.response = none) (hfinishes : g.Finishes ticket x) :
    ∃ moment landing, (g.launch ticket x).outcome = some (moment, landing) ∧
      ∀ s, ∃ y s', landing.land s = (.ok y, s') ∧
        Ended g ticket x (g.launch ticket x).call.toList s y s' := by
  cases hroute : g.routes.lookup x.command with
  | some handler =>
      have hlaunch : g.launch ticket x = g.launchHandler handler ticket x := by
        simp only [Gateway.launch, hroute]
      obtain ⟨moment, y, houtcome, hcall, hhandled⟩ :=
        launchHandler_ended fun hnone => hfinishes.handler hnone handler hroute
      rw [hlaunch]
      exact ⟨moment, _, houtcome, fun s => ⟨y, s, rfl, .of_hit hroute hcall hhandled⟩⟩
  | none =>
      cases hquery : x.query? with
      | none =>
          have hlaunch : g.launch ticket x =
              ⟨none, some (⟨0, 0⟩, .answer x (.generic Reply.unsupportedOperation))⟩ := by
            simp only [Gateway.launch, hroute, hquery]
          rw [hlaunch]
          exact ⟨_, _, rfl, fun s => ⟨_, s, land_answer hopen _ s, .of_unsupported hroute hquery⟩⟩
      | some q =>
          have hlaunch : g.launch ticket x = g.launchQuery q ticket x := by
            simp only [Gateway.launch, hroute, hquery]
          obtain ⟨moment, landing, houtcome, hcall, hqueried⟩ :=
            launchQuery_ended hopen fun hnone => hfinishes.backend hnone hroute q hquery
          rw [hlaunch]
          refine ⟨moment, landing, houtcome, fun s => ?_⟩
          obtain ⟨r, s', hland, hr⟩ := hqueried s
          exact ⟨_, s', hland, .of_query hroute hquery hcall hr⟩

theorem Handled.isSome {limit : Option Nat} {a : Attempt Handler.Failure Exchange} {y : Exchange}
    (h : Handled limit x a y) : y.response.isSome = true := by
  cases h with
  | verbatim _ hy => exact hy
  | _ => rfl

/-- Whatever a command ends with has its reply. -/
theorem Ended.isSome {calls : List Call} {s s' : Store} {y : Exchange}
    (h : Ended g ticket x calls s y s') : y.response.isSome = true := by
  cases hroute : g.routes.lookup x.command with
  | some handler => exact (h.hit handler hroute).2.1.isSome
  | none =>
      cases hquery : x.query? with
      | none =>
          rw [(h.unsupported hroute hquery).2.1]
          rfl
      | some q =>
          obtain ⟨-, r, rfl, -⟩ := h.queried q hroute hquery
          rfl

/-- A handler that never ends. -/
def Handler.stalled : Handler where
  name := "slow"
  commands := [.append]
  act _ _ := .hangs

namespace Gateway.State

theorem process_eq {st : State} {moment : Moment} {landing : Landing}
    (h : (g.launch st.tickets x).outcome = some (moment, landing)) :
    st.process g x = (some (landing.land st.store).1,
      ⟨(landing.land st.store).2, st.calls ++ (g.launch st.tickets x).call.toList,
        st.tickets + 1⟩) := by
  simp only [process, State.launch, h, Option.map_some]
  rfl

/-- **A command that is seen through ends with exactly one exchange that has its reply**, whatever
its callee does, and calls and store are as the table says. -/
theorem process_ended (st : State) (hopen : x.response = none)
    (hfinishes : g.Finishes st.tickets x) :
    ∃ y s' calls, st.process g x = (some (.ok y), ⟨s', st.calls ++ calls, st.tickets + 1⟩) ∧
      y.response.isSome = true ∧ Ended g st.tickets x calls st.store y s' := by
  obtain ⟨moment, landing, houtcome, hland⟩ := launch_ended hopen hfinishes
  obtain ⟨y, s', hstore, hended⟩ := hland st.store
  refine ⟨y, s', _, ?_, hended.isSome, hended⟩
  rw [process_eq houtcome, hstore]

/-- A handler that never ends is called once and given up after a tenth of a second. -/
theorem process_ended_stalled :
    let g : Gateway := { routes := ⟨fun _ => some .stalled⟩, limit := some 100 }
    let x : Exchange := ⟨.append, 1, [[107], [118]], none⟩
    (process g x { store := .fresh }).2.calls = [.handler "slow" false x] ∧
      ∃ y s' calls, process g x { store := .fresh } = (some (.ok y), ⟨s', [] ++ calls, 1⟩) ∧
        y.response.isSome = true ∧ Ended g 0 x calls .fresh y s' :=
  ⟨rfl, process_ended { store := .fresh } rfl
    ⟨fun hlimit => (nomatch hlimit), fun hlimit => (nomatch hlimit)⟩⟩

/-- A time limit of zero is over before a handler that never ends has been called. -/
theorem not_called_at_zero :
    ¬∀ (g : Gateway) (x : Exchange) (st : State) (handler : Handler), x.response = none →
      g.routes.lookup x.command = some handler → g.limit ≠ none →
      (∀ delay ending, handler.act st.tickets x = .ends delay ending → g.limit ≠ some delay) →
      (st.process g x).2.calls = st.calls ++ [.handler handler.name handler.builtIn x] := by
  intro h
  have hcalled := h { routes := ⟨fun _ => some .stalled⟩, limit := some 0 }
    ⟨.append, 1, [[107], [118]], none⟩ { store := .fresh } .stalled rfl rfl (by simp)
    (fun delay ending hact => nomatch hact)
  cases hcalled

end Gateway.State

end RespGateway
