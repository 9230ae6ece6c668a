import RespGateway.Proofs.Dispatch
import RespGateway.Proofs.Queries

/-!
# Queries that lack something

An operation of the cache needs some of the fields of a query, and looks at no others
(`Operation.fields`). A query that lacks one of them fails and leaves no trace in the store;
any other is carried out. What stands in the other fields makes no difference.

The same goes for exchanges on their way to the store, whether or not somebody has counted
their arguments before: a command that lacks an argument is answered by an error and changes
nothing, and arguments beyond those that it takes are not looked at. Only a time limit of
zero comes first: it leaves no time to ask the store at all.
-/

namespace RespGateway

/-! ## What an operation needs -/

namespace Cache

/-- The fields of a query that an operation may need. -/
inductive Field where
  | key
  | value
  | keys
  deriving DecidableEq, Repr

/-- The fields that an operation needs. -/
def Operation.fields : Operation → List Field
  | .get => [.key]
  | .put | .getAndPut => [.key, .value]
  | .remove | .containsKey => [.keys]
  | .size => []

namespace Query

/-- What a query has in a field. -/
def contents (q : Query) : Field → List Bytes
  | .key => q.key.toList
  | .value => q.value.toList
  | .keys => q.keys

/-- A field that the operation needs is empty. -/
def Lacking (q : Query) : Prop := ∃ f ∈ q.operation.fields, q.contents f = []

instance (q : Query) : Decidable q.Lacking :=
  inferInstanceAs (Decidable (∃ f ∈ q.operation.fields, q.contents f = []))

variable {q q' : Query}

theorem contents_ne_nil (h : ¬q.Lacking) {f : Field} (hneeds : f ∈ q.operation.fields) :
    q.contents f ≠ [] := fun hempty => h ⟨f, hneeds, hempty⟩

theorem exists_key (h : ¬q.Lacking) (hneeds : .key ∈ q.operation.fields) :
    ∃ key, q.key = some key :=
  Option.ne_none_iff_exists'.mp fun hkey =>
    contents_ne_nil h hneeds (Option.toList_eq_nil_iff.mpr hkey)

theorem exists_value (h : ¬q.Lacking) (hneeds : .value ∈ q.operation.fields) :
    ∃ value, q.value = some value :=
  Option.ne_none_iff_exists'.mp fun hvalue =>
    contents_ne_nil h hneeds (Option.toList_eq_nil_iff.mpr hvalue)

theorem isEmpty_keys (h : ¬q.Lacking) (hneeds : .keys ∈ q.operation.fields) :
    q.keys.isEmpty = false :=
  List.isEmpty_eq_false_iff.mpr (contents_ne_nil h hneeds)

/-- Two queries for one operation have the same in all fields that it needs. -/
structure Matches (q q' : Query) : Prop where
  operation : q'.operation = q.operation
  contents : ∀ f ∈ q.operation.fields, q'.contents f = q.contents f

theorem Matches.key (h : q.Matches q') (hneeds : .key ∈ q.operation.fields) :
    q'.key = q.key := by
  have hhead : q'.key.toList.head? = q.key.toList.head? :=
    congrArg List.head? (h.contents .key hneeds)
  rwa [Option.head?_toList, Option.head?_toList] at hhead

theorem Matches.value (h : q.Matches q') (hneeds : .value ∈ q.operation.fields) :
    q'.value = q.value := by
  have hhead : q'.value.toList.head? = q.value.toList.head? :=
    congrArg List.head? (h.contents .value hneeds)
  rwa [Option.head?_toList, Option.head?_toList] at hhead

theorem Matches.keys (h : q.Matches q') (hneeds : .keys ∈ q.operation.fields) :
    q'.keys = q.keys := h.contents .keys hneeds

end Query

end Cache

/-! ## How the store takes it -/

/-- The shape of the reply to a command that becomes an operation. -/
def Cache.Operation.framing : Operation → Framing
  | .get | .getAndPut => .bulk
  | .put => .status
  | .remove | .containsKey | .size => .integer

theorem Command.framing?_of_operation {command : Command} {operation : Cache.Operation}
    (h : command.operation? = some operation) : command.framing? = some operation.framing := by
  cases command <;> cases h <;> rfl

theorem Cache.Query.operation_of (operation : Cache.Operation) (x : Exchange) :
    (Cache.Query.of operation x).operation = operation := by
  cases operation <;> rfl

theorem Framing.fits_value (value : Option Bytes) : Framing.bulk.Fits (value.map .bytes) := by
  cases value with
  | none => exact .absent
  | some data => exact .present data

theorem Framing.Fits.ne_error {framing : Framing} {payload : Option Cache.Payload}
    (h : framing.Fits payload) (text : String) : framing.reply payload ≠ .error text := by
  cases h <;> exact Reply.noConfusion

namespace Store

variable {q q' : Cache.Query}

/-- A query that lacks something fails, and the store stays as it is. -/
theorem answer_lacking (h : q.Lacking) (s : Store) :
    ∃ reason, s.answer q = (.failed reason, s) := by
  obtain ⟨operation, client, key, value, keys⟩ := q
  obtain ⟨f, hneeds, hempty⟩ := h
  cases operation with
  | get =>
      obtain rfl : f = .key := List.mem_singleton.mp hneeds
      obtain rfl : key = none := Option.toList_eq_nil_iff.mp hempty
      exact ⟨_, rfl⟩
  | put | getAndPut =>
      have hf : f = .key ∨ f = .value := List.mem_pair.mp hneeds
      rcases hf with rfl | rfl
      · obtain rfl : key = none := Option.toList_eq_nil_iff.mp hempty
        exact ⟨_, rfl⟩
      · obtain rfl : value = none := Option.toList_eq_nil_iff.mp hempty
        cases key <;> exact ⟨_, rfl⟩
  | remove | containsKey =>
      obtain rfl : f = .keys := List.mem_singleton.mp hneeds
      obtain rfl : keys = [] := hempty
      exact ⟨_, rfl⟩
  | size => cases hneeds

/-- A query that lacks nothing is carried out, and the payload is of the kind that replies for its
operation are made of. -/
theorem answer_complete (h : ¬q.Lacking) (s : Store) :
    ∃ payload s', s.answer q = (.success payload, s') ∧ q.operation.framing.Fits payload := by
  obtain ⟨operation, client, key, value, keys⟩ := q
  cases operation with
  | get =>
      obtain ⟨k, rfl⟩ : ∃ k, key = some k := Cache.Query.exists_key h (.head _)
      exact ⟨_, _, rfl, Framing.fits_value _⟩
  | put =>
      obtain ⟨k, rfl⟩ : ∃ k, key = some k := Cache.Query.exists_key h (.head _)
      obtain ⟨v, rfl⟩ : ∃ v, value = some v := Cache.Query.exists_value h (.tail _ (.head _))
      exact ⟨_, _, rfl, .nothing⟩
  | getAndPut =>
      obtain ⟨k, rfl⟩ : ∃ k, key = some k := Cache.Query.exists_key h (.head _)
      obtain ⟨v, rfl⟩ : ∃ v, value = some v := Cache.Query.exists_value h (.tail _ (.head _))
      exact ⟨_, _, rfl, Framing.fits_value _⟩
  | remove =>
      have hkeys : keys.isEmpty = false := Cache.Query.isEmpty_keys h (.head _)
      simp only [answer, hkeys]
      exact ⟨_, _, rfl, .number _⟩
  | containsKey =>
      have hkeys : keys.isEmpty = false := Cache.Query.isEmpty_keys h (.head _)
      simp only [answer, hkeys]
      exact ⟨_, _, rfl, .number _⟩
  | size => exact ⟨_, _, rfl, .number _⟩

theorem answer_matches (h : q.Matches q') (s : Store) : s.answer q' = s.answer q := by
  obtain ⟨operation, client, key, value, keys⟩ := q
  obtain ⟨operation', client', key', value', keys'⟩ := q'
  have hoperation : operation' = operation := h.operation
  subst hoperation
  cases operation' with
  | get =>
      obtain rfl : key' = key := h.key (.head _)
      rfl
  | put | getAndPut =>
      obtain rfl : key' = key := h.key (.head _)
      obtain rfl : value' = value := h.value (.tail _ (.head _))
      rfl
  | remove | containsKey =>
      obtain rfl : keys' = keys := h.keys (.head _)
      rfl
  | size => rfl

/-- How a store takes a query. -/
structure Takes (s : Store) (q : Cache.Query) : Prop where
  failed_iff : (s.answer q).1.status = .failed ↔ q.Lacking
  /-- A query that fails leaves no trace. -/
  unchanged : q.Lacking → (s.answer q).2 = s
  /-- Any other is carried out, and no error is told of it. -/
  success : ¬q.Lacking → ∃ payload, (s.answer q).1 = .success payload
  /-- What the operation does not need makes no difference. -/
  unread : ∀ q', q.Matches q' → s.answer q' = s.answer q

theorem takes (s : Store) (q : Cache.Query) : s.Takes q where
  failed_iff := by
    constructor
    · intro hfailed
      by_contra hcomplete
      obtain ⟨payload, s', hanswer, -⟩ := answer_complete hcomplete s
      rw [hanswer] at hfailed
      cases hfailed
    · intro hlacking
      obtain ⟨reason, hanswer⟩ := answer_lacking hlacking s
      rw [hanswer]
      rfl
  unchanged := by
    intro hlacking
    obtain ⟨reason, hanswer⟩ := answer_lacking hlacking s
    rw [hanswer]
  success := by
    intro hcomplete
    obtain ⟨payload, s', hanswer, -⟩ := answer_complete hcomplete s
    exact ⟨payload, congrArg Prod.fst hanswer⟩
  unread _ h := answer_matches h s

end Store

/-! ## Exchanges on their way to the store -/

/-- The least number of arguments. -/
def Arity.least : Arity → Nat
  | .exact n => n
  | .atLeast n => n
  | .range min _ => min

/-- The arguments that a command looks at: no more than it takes. -/
def Exchange.considered (x : Exchange) : List Bytes :=
  match x.command.arity with
  | .exact n => x.args.take n
  | .atLeast _ => x.args
  | .range _ max => x.args.take max

variable {x y : Exchange} {operation : Cache.Operation}

/-- The query of an exchange lacks something if and only if an argument is missing. -/
theorem lacking_iff (h : x.command.operation? = some operation) :
    (Cache.Query.of operation x).Lacking ↔ x.args.length < x.command.arity.least := by
  obtain ⟨command, client, args, response⟩ := x
  -- whether an argument is missing shows in the first two of them
  cases command <;> cases h <;> rcases args with _ | ⟨a, _ | ⟨b, args⟩⟩ <;>
    simp [Cache.Query.Lacking, Cache.Query.of, Cache.Query.contents, Cache.Operation.fields,
      Exchange.key?, Command.arity, Arity.least]

theorem getElem?_of_take {args args' : List Bytes} {n i : Nat} (h : args'.take n = args.take n)
    (hi : i < n) : args'[i]? = args[i]? := by
  rw [← List.getElem?_take_of_lt hi, h, List.getElem?_take_of_lt hi]

theorem head?_of_take {args args' : List Bytes} {n : Nat} (h : args'.take n = args.take n)
    (hn : 0 < n) : args'.head? = args.head? := by
  rw [List.head?_eq_getElem?, List.head?_eq_getElem?, getElem?_of_take h hn]

/-- Exchanges of one command that agree in the arguments that it looks at have the same in all
fields that their queries need. -/
theorem matches_of_considered (hcommand : y.command = x.command)
    (hconsidered : y.considered = x.considered) (h : x.command.operation? = some operation) :
    (Cache.Query.of operation x).Matches (.of operation y) := by
  obtain ⟨command, client, args, response⟩ := x
  obtain ⟨command', client', args', response'⟩ := y
  have hcommand' : command' = command := hcommand
  subst hcommand'
  cases command' <;> cases h
  case get =>
      refine ⟨rfl, fun f hneeds => ?_⟩
      obtain rfl : f = .key := List.mem_singleton.mp hneeds
      exact congrArg Option.toList (head?_of_take hconsidered Nat.one_pos)
  case set | getSet =>
      refine ⟨rfl, fun f hneeds => ?_⟩
      have hf : f = .key ∨ f = .value := List.mem_pair.mp hneeds
      rcases hf with rfl | rfl
      · exact congrArg Option.toList (head?_of_take hconsidered Nat.two_pos)
      · exact congrArg Option.toList (getElem?_of_take hconsidered Nat.one_lt_two)
  case del | exist =>
      refine ⟨rfl, fun f hneeds => ?_⟩
      obtain rfl : f = .keys := List.mem_singleton.mp hneeds
      exact hconsidered
  case dbSize => exact ⟨rfl, fun f hneeds => nomatch hneeds⟩

/-- A command that no handler claims and that the store is asked for, with its reply to come. -/
structure Storable (g : Gateway) (x : Exchange) : Prop where
  backend : g.backend = .plain
  unclaimed : g.routes.lookup x.command = none
  mapped : x.command.operation?.isSome = true
  unanswered : x.response = none

theorem Storable.finishes {g : Gateway} (h : Storable g x) (ticket : Nat) :
    g.Finishes ticket x where
  handler := by
    intro _ handler hroute
    rw [h.unclaimed] at hroute
    cases hroute
  backend := by
    intro _ _ q _ hact
    rw [h.backend] at hact
    cases hact

/-- The reply to a command whose query is `q`, and what becomes of the store. -/
def Gateway.ask (g : Gateway) (command : Command) (q : Cache.Query) (s : Store) : Reply × Store :=
  if g.limit = some 0 then (.error "ERR Operation timed out!", s)
  else ((s.answer q).1.reply command, (s.answer q).2)

theorem Queried.ask {g : Gateway} {command : Command} {q : Cache.Query} {s s' : Store} {r : Reply}
    (h : Queried g.limit command q s (.ends 0 (.returned .store)) r s') :
    g.ask command q s = (r, s') := by
  cases h with
  | served hdelay =>
      have hlimit : g.limit ≠ some 0 := fun hzero => Nat.not_lt_zero 0 (hdelay 0 hzero)
      exact if_neg hlimit
  | overdue hover =>
      cases hlimit : g.limit with
      | none =>
          rw [hlimit] at hover
          cases hover
      | some n =>
          rw [hlimit] at hover
          cases hover with
          | late hn =>
              obtain rfl : n = 0 := Nat.le_zero.mp hn
              exact if_pos hlimit

namespace Gateway.State

theorem process_storable {g : Gateway} (h : Storable g x)
    (hop : x.command.operation? = some operation) (st : State) :
    ∃ calls, st.process g x =
      (some (.ok { x with response := some (g.ask x.command (.of operation x) st.store).1 }),
        ⟨(g.ask x.command (.of operation x) st.store).2, st.calls ++ calls, st.tickets + 1⟩) := by
  obtain ⟨y, s', calls, hprocess, -, hended⟩ :=
    process_ended st h.unanswered (h.finishes st.tickets)
  have hq : x.query? = some (.of operation x) := by
    rw [Exchange.query?, hop, Option.map_some]
  obtain ⟨-, r, rfl, hqueried⟩ := hended.queried _ h.unclaimed hq
  rw [h.backend] at hqueried
  refine ⟨calls, ?_⟩
  rw [hprocess, Queried.ask hqueried]

end Gateway.State

/-- What becomes of a command on its way to the store: its reply is `r`, and the store is `s'`. -/
structure StoredAs (g : Gateway) (s : Store) (x : Exchange) (r : Reply) (s' : Store) : Prop where
  /-- There is no time to ask the store. -/
  overdue : g.limit = some 0 → r = .error "ERR Operation timed out!" ∧ s' = s
  /-- An argument is missing. -/
  lacking : g.limit ≠ some 0 → x.args.length < x.command.arity.least →
    r = .error "ERR Operation error!" ∧ s' = s
  /-- No argument is missing. -/
  complete : g.limit ≠ some 0 → x.command.arity.least ≤ x.args.length →
    ∃ q payload, x.query? = some q ∧ s.answer q = (.success payload, s') ∧
      r = (Cache.Answer.success payload).reply x.command ∧ ∀ text, r ≠ .error text

theorem storedAs_ask (g : Gateway) (s : Store) (hop : x.command.operation? = some operation) :
    StoredAs g s x (g.ask x.command (.of operation x) s).1
      (g.ask x.command (.of operation x) s).2 where
  overdue := by
    intro hzero
    rw [Gateway.ask, if_pos hzero]
    exact ⟨rfl, rfl⟩
  lacking := by
    intro hlimit hmissing
    obtain ⟨reason, hanswer⟩ := Store.answer_lacking ((lacking_iff hop).mpr hmissing) s
    rw [Gateway.ask, if_neg hlimit, hanswer]
    exact ⟨rfl, rfl⟩
  complete := by
    intro hlimit henough
    have hcomplete : ¬(Cache.Query.of operation x).Lacking := by
      rw [lacking_iff hop]
      exact Nat.not_lt.mpr henough
    obtain ⟨payload, s', hanswer, hfits⟩ := Store.answer_complete hcomplete s
    rw [Cache.Query.operation_of] at hfits
    have hreply : (Cache.Answer.success payload).reply x.command =
        operation.framing.reply payload := by
      rw [Cache.Answer.reply, Command.framing?_of_operation hop]
      rfl
    rw [Gateway.ask, if_neg hlimit, hanswer]
    refine ⟨_, payload, ?_, hanswer, rfl, fun text => ?_⟩
    · rw [Exchange.query?, hop, Option.map_some]
    · rw [hreply]
      exact hfits.ne_error text

/-- **A query that lacks something fails and leaves no trace in the store, any other is carried out,
and what its operation does not need makes no difference.** So it is with commands on their way to
the store, however many arguments they have, unless there is no time for any call. -/
theorem lacking_leaves_no_trace :
    (∀ (s : Store) (q : Cache.Query), s.Takes q) ∧
    ∀ (g : Gateway) (st : Gateway.State) (x : Exchange), Storable g x →
      ∃ r s', StoredAs g st.store x r s' ∧
        ∀ y : Exchange, y.command = x.command → y.response = none →
          y.considered = x.considered →
          ∃ calls, st.process g y = (some (.ok { y with response := some r }),
            ⟨s', st.calls ++ calls, st.tickets + 1⟩) := by
  refine ⟨Store.takes, fun g st x hx => ?_⟩
  obtain ⟨operation, hop⟩ := Option.isSome_iff_exists.mp hx.mapped
  refine ⟨_, _, storedAs_ask g st.store hop, fun y hcommand hopen hconsidered => ?_⟩
  have hy : Storable g y := ⟨hx.backend, hcommand ▸ hx.unclaimed, hcommand ▸ hx.mapped, hopen⟩
  obtain ⟨calls, hprocess⟩ := Gateway.State.process_storable hy (hcommand ▸ hop) st
  have hsame := Store.answer_matches (matches_of_considered hcommand hconsidered hop) st.store
  refine ⟨calls, hprocess.trans ?_⟩
  simp only [Gateway.ask, hsame, hcommand]

/-- A `SET` without a value is refused, and the key keeps the value that it has. -/
theorem lacking_leaves_no_trace_set :
    let g : Gateway := { routes := .empty }
    let x : Exchange := ⟨.set, 7, [[107]], none⟩
    let s : Store := (Store.fresh.set [107] [118]).2
    Storable g x ∧ x.args.length < x.command.arity.least ∧
      ∃ calls, Gateway.State.process g x { store := s } =
        (some (.ok { x with response := some (.error "ERR Operation error!") }),
          ⟨s, [] ++ calls, 1⟩) := by
  intro g x s
  have hx : Storable g x := ⟨rfl, rfl, rfl, rfl⟩
  have hmissing : x.args.length < x.command.arity.least := by decide
  obtain ⟨r, s', hstored, hprocess⟩ := lacking_leaves_no_trace.2 g { store := s } x hx
  obtain ⟨rfl, rfl⟩ := hstored.lacking (by simp [g]) hmissing
  exact ⟨hx, hmissing, hprocess x rfl rfl rfl⟩

/-- A time limit of zero is over before anybody sees that an argument is missing. -/
theorem lacking_timed_out :
    ¬∀ (g : Gateway) (st : Gateway.State) (x : Exchange), Storable g x →
      x.args.length < x.command.arity.least →
      (st.process g x).1 =
        some (.ok { x with response := some (.error "ERR Operation error!") }) := by
  intro h
  have hanswered := h { routes := .empty, limit := some 0 } { store := .fresh }
    ⟨.get, 1, [], none⟩ ⟨rfl, rfl, rfl, rfl⟩ (by decide)
  have hresponse : (some (.error "ERR Operation timed out!") : Option Reply) =
      some (.error "ERR Operation error!") :=
    congrArg Exchange.response (Except.ok.inj (Option.some.inj hanswered))
  exact absurd hresponse (by decide)

end RespGateway
