import RespGateway.Proofs.InOrder
import RespGateway.Proofs.Reference

/-!
# A plain gateway serves like the reference

A command of a gateway with no callees but its own ends at once, unless there is no time
for any call, and it ends with what the reference server replies. `replays_serveAll` says
this of the history of one client.
-/

namespace RespGateway

/-! ## How a command ends -/

theorem course_at_once {ε α : Type} {limit : Option Nat} (h : limit ≠ some 0)
    (ending : Ending ε α) : (Attempt.ends 0 ending).course limit = .ended 0 ending := by
  cases limit with
  | none => rfl
  | some n =>
      cases n with
      | zero => exact absurd rfl h
      | succ n => simp [Attempt.course]

/-- With what a command of a plain gateway ends. -/
inductive PlainLanding (x : Exchange) : Landing → Prop where
  | handler {ticket : Nat} {ending : Ending Handler.Failure Exchange} :
      x.command ∈ Handler.connection.commands →
      Handler.connection.act ticket x = .ends 0 ending →
      PlainLanding x (.reply (Gateway.handedBack x ending))
  | query {q : Cache.Query} : x.query? = some q → PlainLanding x (.serve x q)
  | unsupported : x.command ∉ Handler.connection.commands → x.query? = none →
      PlainLanding x (.answer x (.generic Reply.unsupportedOperation))

namespace Gateway.Plain

variable {g : Gateway}

/-- A command of a plain gateway ends at once. -/
theorem outcome (h : g.Plain) (hlimit : g.limit ≠ some 0) {ticket : Nat} {x : Exchange}
    {moment : Moment} {landing : Landing}
    (hlaunch : (g.launch ticket x).outcome = some (moment, landing)) :
    moment.time = 0 ∧ PlainLanding x landing := by
  unfold Gateway.launch at hlaunch
  rw [h.lookup] at hlaunch
  by_cases hown : x.command ∈ Handler.connection.commands
  · rw [if_pos hown] at hlaunch
    obtain ⟨ending, hends, -⟩ := connection_ends ticket x
    simp only [Gateway.launchHandler, hends, course_at_once hlimit] at hlaunch
    cases hlaunch
    exact ⟨rfl, .handler hown hends⟩
  · rw [if_neg hown] at hlaunch
    cases hq : x.query? with
    | some q =>
        simp only [hq, Gateway.launchQuery, h.backend, Backend.plain,
          course_at_once hlimit] at hlaunch
        cases hlaunch
        exact ⟨rfl, .query hq⟩
    | none =>
        simp only [hq] at hlaunch
        cases hlaunch
        exact ⟨rfl, .unsupported hown hq⟩

end Gateway.Plain

/-! ## With what it ends -/

/-- The end of a command: its reply and what becomes of the store are those of the reference. -/
def LandsAs (x : Exchange) (t : Store.Table) (s : Store) (landing : Landing) : Prop :=
  ∃ s', landing.land s = (.ok { x with response := some (Reference.answer t x.command x.args).1 },
    s') ∧ s'.Holds (Reference.answer t x.command x.args).2

theorem lands_serve {x : Exchange} {t t' : Store.Table} {s s' : Store} {q : Cache.Query}
    {answer : Cache.Answer} {r : Reply} (hopen : x.response = none)
    (hanswer : s.answer q = (answer, s')) (hreply : answer.reply x.command = r)
    (hreference : Reference.answer t x.command x.args = (r, t')) (hholds : s'.Holds t') :
    LandsAs x t s (.serve x q) := by
  refine ⟨s', ?_, hreference ▸ hholds⟩
  rw [Landing.land, hanswer, hreference, ← hreply]
  exact congrArg (·, s') (respond_of_none hopen _)

theorem length_one {args : List Bytes} (h : (Arity.exact 1).accepts args.length = true) :
    ∃ a, args = [a] := List.length_eq_one_iff.mp (by simpa [Arity.accepts] using h)

theorem length_two {args : List Bytes} (h : (Arity.exact 2).accepts args.length = true) :
    ∃ a b, args = [a, b] := List.length_eq_two.mp (by simpa [Arity.accepts] using h)

theorem isEmpty_of_atLeast {args : List Bytes}
    (h : (Arity.atLeast 1).accepts args.length = true) : args.isEmpty = false := by
  cases args with
  | nil => cases h
  | cons a args => rfl

theorem reply_bound {command : Command} (h : command.framing? = some .bulk)
    (value : Option Bytes) :
    (Cache.Answer.success (value.map .bytes)).reply command = Reference.bound value := by
  rw [Cache.Answer.reply, h]
  cases value <;> rfl

/-- A query of a plain gateway is answered as the reference answers the command. -/
theorem lands_query {x : Exchange} {q : Cache.Query} {t : Store.Table} {s : Store}
    (hopen : x.response = none) (harity : x.command.arity.accepts x.args.length = true)
    (hq : x.query? = some q) (h : s.Holds t) : LandsAs x t s (.serve x q) := by
  obtain ⟨command, client, args, response⟩ := x
  obtain rfl : response = none := hopen
  obtain ⟨operation, hoperation, rfl⟩ := Option.map_eq_some_iff.mp hq
  cases command <;> cases hoperation
  case get =>
      obtain ⟨key, rfl⟩ := length_one harity
      have hreply := (reply_bound (show Command.get.framing? = some .bulk from rfl) _).trans
        (congrArg Reference.bound (h.get key).1)
      exact lands_serve rfl rfl hreply rfl (h.get key).2
  case set =>
      obtain ⟨key, value, rfl⟩ := length_two harity
      have hanswer : s.answer (.of .put ⟨.set, client, [key, value], none⟩) =
          (.success none, (s.set key value).2) := rfl
      exact lands_serve rfl hanswer rfl rfl (h.set key value).2
  case getSet =>
      obtain ⟨key, value, rfl⟩ := length_two harity
      have hreply := (reply_bound (show Command.getSet.framing? = some .bulk from rfl) _).trans
        (congrArg Reference.bound (h.set key value).1)
      exact lands_serve rfl rfl hreply rfl (h.set key value).2
  case del =>
      obtain ⟨hcount, hholds⟩ := h.deleteMany args
      have hanswer : s.answer (.of .remove ⟨.del, client, args, none⟩) =
          (.success (Store.countPayload (UInt64.ofNat (s.deleteMany args).1)),
            (s.deleteMany args).2) := by
        simp only [Store.answer, Cache.Query.of, isEmpty_of_atLeast harity]
        rfl
      refine lands_serve rfl hanswer ?_ rfl hholds
      rw [← hcount]
      rfl
  case exist =>
      have hanswer : s.answer (.of .containsKey ⟨.exist, client, args, none⟩) =
          (.success (Store.countPayload (UInt64.ofNat (s.containsMany args))), s) := by
        simp only [Store.answer, Cache.Query.of, isEmpty_of_atLeast harity]
        rfl
      refine lands_serve rfl hanswer ?_ rfl h
      rw [← h.containsMany args]
      rfl
  case dbSize =>
      refine lands_serve rfl rfl ?_ rfl h
      rw [Store.size, h.keys]
      rfl

theorem answer_unsupported (t : Store.Table) {command : Command}
    (hown : command ∉ Handler.connection.commands) (hnone : command.operation? = none)
    (args : List Bytes) :
    Reference.answer t command args = (.generic Reply.unsupportedOperation, t) := by
  cases command with
  | ping => exact absurd (by decide) hown
  | echo => exact absurd (by decide) hown
  | quit => exact absurd (by decide) hown
  | get => cases hnone
  | set => cases hnone
  | getSet => cases hnone
  | del => cases hnone
  | exist => cases hnone
  | dbSize => cases hnone
  | _ => rfl

/-- **Every command of a plain gateway ends as with the reference server.** -/
theorem PlainLanding.lands {x : Exchange} {landing : Landing} {t : Store.Table} {s : Store}
    (hlanding : PlainLanding x landing) (hopen : x.response = none)
    (harity : x.command.arity.accepts x.args.length = true) (h : s.Holds t) :
    LandsAs x t s landing := by
  cases hlanding with
  | query hq => exact lands_query hopen harity hq h
  | @handler ticket ending hown hends =>
      obtain ⟨command, client, args, response⟩ := x
      obtain rfl : response = none := hopen
      -- what the handler replies is what the reference does, and it does reply
      have hreply : ∃ r, Handler.connectionReply ⟨command, client, args, none⟩ = .ok r ∧
          Reference.answer t command args = (r, t) := by
        simp only [Handler.connection, List.mem_cons, List.not_mem_nil, or_false] at hown
        rcases hown with rfl | rfl | rfl
        · cases args with
          | nil => exact ⟨_, rfl, rfl⟩
          | cons a args => exact ⟨_, rfl, rfl⟩
        · obtain ⟨a, rfl⟩ := length_one harity
          exact ⟨_, rfl, rfl⟩
        · exact ⟨_, rfl, rfl⟩
      obtain ⟨r, hr, hreference⟩ := hreply
      simp only [Handler.connection, hr, Handler.answering] at hends
      cases hends
      refine ⟨s, ?_, ?_⟩
      · rw [hreference]
        rfl
      · rw [hreference]
        exact h
  | unsupported hown hq =>
      have hreference := answer_unsupported t hown (Option.map_eq_none_iff.mp hq) x.args
      refine ⟨s, ?_, ?_⟩
      · rw [hreference]
        exact congrArg (·, s) (respond_of_none hopen _)
      · rw [hreference]
        exact h

/-! ## A history of one client -/

/-- A delivery that answers a request has the reply of the reference. -/
theorem Delivery.Comes.serve {g : Gateway} (hplain : g.Plain) (hlimit : g.limit ≠ some 0)
    {d : Delivery} {s s' : Store} (hcomes : d.Comes g s s') {client : UInt64}
    {arguments : List Bytes} (hd : d.request? = some (Exchange.decode client arguments))
    {t : Store.Table} (h : s.Holds t) :
    d.item.content = (Reference.serve t arguments).1 ∧
      s'.Holds (Reference.serve t arguments).2 := by
  cases hcomes with
  | refusal why s =>
      have hwhy := (Option.some.inj hd).symm
      have hserve : Reference.serve t arguments = (why.reply, t) := by
        cases arguments with
        | nil =>
            cases hwhy
            rfl
        | cons name args =>
            rw [Exchange.decode] at hwhy
            rw [Reference.serve]
            cases hname : Command.ofName? name with
            | none =>
                simp only [hname] at hwhy
                cases hwhy
                rfl
            | some command =>
                simp only [hname] at hwhy
                by_cases harity : command.arity.accepts args.length
                · rw [if_pos harity] at hwhy
                  cases hwhy
                · rw [if_neg harity] at hwhy
                  cases hwhy
                  exact if_neg harity
      rw [hserve]
      exact ⟨rfl, h⟩
  | @reply taken y moment landing _ _ hlaunch hland =>
      have hx := (Option.some.inj hd).symm
      obtain ⟨-, hopen, name, rfl, hname, harity⟩ := Exchange.decode_ok hx
      obtain ⟨s₁, hlands, hholds⟩ :=
        (hplain.outcome hlimit hlaunch).2.lands hopen harity h
      rw [hland] at hlands
      cases hlands
      have hserve : Reference.serve t (name :: taken.exchange.args) =
          Reference.answer t taken.exchange.command taken.exchange.args := by
        rw [Reference.serve, hname]
        exact if_pos harity
      rw [hserve]
      exact ⟨rfl, hholds⟩
  | farewell r s => cases hd

/-- **What is put out for a client alone, are the replies of the reference.** -/
theorem replays_serveAll {g : Gateway} (hplain : g.Plain) (hlimit : g.limit ≠ some 0) {i : Nat}
    {client : UInt64} {requests : List (List Bytes)} {answers : List Delivery}
    (hanswers : Answers client requests answers) {rest : List (Nat × Delivery)} {s s'' : Store}
    (hreplays : Replays g s (answers.map (Prod.mk i) ++ rest) s'') {t : Store.Table}
    (h : s.Holds t) :
    answers.map (·.item.content) = (Reference.serveAll t requests).1 ∧
      ∃ s', s'.Holds (Reference.serveAll t requests).2 ∧ Replays g s' rest s'' := by
  induction hanswers generalizing s t with
  | nil => exact ⟨rfl, s, h, hreplays⟩
  | @cons arguments d requests answers hd _ ih =>
      cases hreplays with
      | cons hcomes hreplays =>
          obtain ⟨hreply, hholds⟩ := hcomes.serve hplain hlimit hd h
          obtain ⟨hreplies, s', hs', hrest⟩ := ih hreplays hholds
          refine ⟨?_, s', hs', hrest⟩
          rw [List.map_cons, hreply, hreplies]
          rfl

end RespGateway
