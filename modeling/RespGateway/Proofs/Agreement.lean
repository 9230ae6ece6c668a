import RespGateway.Proofs.Serves

/-!
# Stores that agree on some keys

Two stores may bind some keys alike and differ elsewhere: in other keys, in how they spread
the keys over their shards, in what they have counted. A query about keys on which they
agree gets the same answer from both and leaves them in agreement, and a query about other
keys does not disturb the agreement. Only the number of keys is about all of them.

The same is carried to the commands of a gateway with no callees but its own: who sends a
command does not matter for the reply, nor does its ticket.
-/

namespace RespGateway

namespace Store

/-- Two stores bind some keys alike. -/
def AgreesOn (keys : List Bytes) (s t : Store) : Prop := ∀ key ∈ keys, s.value? key = t.value? key

namespace AgreesOn

variable {keys : List Bytes} {s t u : Store}

theorem refl (keys : List Bytes) (s : Store) : AgreesOn keys s s := fun _ _ => rfl

theorem symm (h : AgreesOn keys s t) : AgreesOn keys t s := fun key hkey => (h key hkey).symm

theorem trans (h : AgreesOn keys s t) (h' : AgreesOn keys t u) : AgreesOn keys s u :=
  fun key hkey => (h key hkey).trans (h' key hkey)

/-- Stores without keys agree, however they would spread them. -/
theorem empty (keys : List Bytes) (place place' : Bytes → Fin shardCount) :
    AgreesOn keys (.empty place) (.empty place') := fun key _ =>
  ((holds_empty place).value? key).trans ((holds_empty place').value? key).symm

/-! ## Operations on the keys agreed on -/

theorem set (h : AgreesOn keys s t) (key value : Bytes) :
    AgreesOn keys (s.set key value).2 (t.set key value).2 := by
  intro k hk
  rw [value?_set, value?_set, h k hk]

theorem delete (h : AgreesOn keys s t) (key : Bytes) :
    AgreesOn keys (s.delete key).2 (t.delete key).2 := by
  intro k hk
  rw [value?_delete, value?_delete, h k hk]

theorem deleteMany (h : AgreesOn keys s t) {asked : List Bytes}
    (hasked : ∀ key ∈ asked, key ∈ keys) :
    (s.deleteMany asked).1 = (t.deleteMany asked).1 ∧
      AgreesOn keys (s.deleteMany asked).2 (t.deleteMany asked).2 := by
  induction asked generalizing s t with
  | nil => exact ⟨rfl, h⟩
  | cons key asked ih =>
      obtain ⟨hcount, hagree⟩ := ih (h.delete key) fun k hk => hasked k (List.mem_cons_of_mem _ hk)
      have hpresent : (s.delete key).1 = (t.delete key).1 :=
        congrArg Option.isSome (h key (hasked key (List.mem_cons_self ..)))
      refine ⟨?_, hagree⟩
      rw [Store.deleteMany, Store.deleteMany]
      dsimp only
      rw [hpresent, hcount]

theorem containsMany (h : AgreesOn keys s t) {asked : List Bytes}
    (hasked : ∀ key ∈ asked, key ∈ keys) : s.containsMany asked = t.containsMany asked := by
  refine List.countP_congr fun key hkey => ?_
  rw [contains, contains, h key (hasked key hkey)]

end AgreesOn

/-! ## Operations on other keys -/

variable {keys : List Bytes}

theorem agreesOn_set (s : Store) {key : Bytes} (h : key ∉ keys) (value : Bytes) :
    AgreesOn keys s (s.set key value).2 := by
  intro k hk
  have hother : k ≠ key := fun heq => h (heq ▸ hk)
  rw [value?_set, if_neg hother]

theorem agreesOn_delete (s : Store) {key : Bytes} (h : key ∉ keys) :
    AgreesOn keys s (s.delete key).2 := by
  intro k hk
  have hother : k ≠ key := fun heq => h (heq ▸ hk)
  rw [value?_delete, if_neg hother]

theorem agreesOn_deleteMany (s : Store) {others : List Bytes} (h : ∀ key ∈ others, key ∉ keys) :
    AgreesOn keys s (s.deleteMany others).2 := by
  induction others generalizing s with
  | nil => exact .refl keys s
  | cons key others ih =>
      exact (agreesOn_delete s (h key (List.mem_cons_self ..))).trans
        (ih _ fun k hk => h k (List.mem_cons_of_mem _ hk))

end Store

/-! ## Queries -/

/-- The keys that a query is about. -/
def Cache.Query.subjects (q : Cache.Query) : List Bytes := q.key.toList ++ q.keys

namespace Store

variable {keys : List Bytes} {s t : Store}

/-- **A query about keys on which two stores agree gets the same answer from both**, and they agree
afterwards. -/
theorem AgreesOn.answer (h : AgreesOn keys s t) {q : Cache.Query}
    (hkeys : ∀ key ∈ q.subjects, key ∈ keys) (hsize : q.operation ≠ .size) :
    (s.answer q).1 = (t.answer q).1 ∧ AgreesOn keys (s.answer q).2 (t.answer q).2 := by
  obtain ⟨operation, client, key, value, asked⟩ := q
  have hkey : ∀ k, key = some k → s.value? k = t.value? k := by
    rintro k rfl
    exact h k (hkeys k (by simp [Cache.Query.subjects]))
  have hasked : ∀ k ∈ asked, k ∈ keys := fun k hk => hkeys k (List.mem_append_right _ hk)
  cases operation with
  | get =>
      cases key with
      | none => exact ⟨rfl, h⟩
      | some key =>
          have hvalue := hkey key rfl
          simp only [Store.answer, Store.get]
          rw [hvalue]
          exact ⟨rfl, h⟩
  | put =>
      cases key with
      | none => exact ⟨rfl, h⟩
      | some key =>
          cases value with
          | none => exact ⟨rfl, h⟩
          | some value => exact ⟨rfl, h.set key value⟩
  | getAndPut =>
      cases key with
      | none => exact ⟨rfl, h⟩
      | some key =>
          cases value with
          | none => exact ⟨rfl, h⟩
          | some value =>
              refine ⟨?_, h.set key value⟩
              simp only [Store.answer, Store.set]
              rw [hkey key rfl]
  | remove =>
      obtain ⟨hcount, hagree⟩ := h.deleteMany hasked
      simp only [Store.answer]
      split
      · exact ⟨rfl, h⟩
      · exact ⟨by rw [hcount], hagree⟩
  | containsKey =>
      simp only [Store.answer]
      split
      · exact ⟨rfl, h⟩
      · exact ⟨by rw [h.containsMany hasked], h⟩
  | size => exact absurd rfl hsize

/-- **A query about other keys does not disturb the agreement.** -/
theorem agreesOn_answer (s : Store) {q : Cache.Query} (h : ∀ key ∈ q.subjects, key ∉ keys) :
    AgreesOn keys s (s.answer q).2 := by
  obtain ⟨operation, client, key, value, others⟩ := q
  have hkey : ∀ k, key = some k → k ∉ keys := by
    rintro k rfl
    exact h k (by simp [Cache.Query.subjects])
  cases operation with
  | get =>
      cases key with
      | none => exact .refl keys s
      | some key => exact .refl keys s
  | put =>
      cases key with
      | none => exact .refl keys s
      | some key =>
          cases value with
          | none => exact .refl keys s
          | some value => exact agreesOn_set s (hkey key rfl) value
  | getAndPut =>
      cases key with
      | none => exact .refl keys s
      | some key =>
          cases value with
          | none => exact .refl keys s
          | some value => exact agreesOn_set s (hkey key rfl) value
  | remove =>
      simp only [Store.answer]
      split
      · exact .refl keys s
      · exact agreesOn_deleteMany s fun k hk => h k (List.mem_append_right _ hk)
  | containsKey =>
      simp only [Store.answer]
      split <;> exact .refl keys s
  | size => exact .refl keys s

end Store

/-! ## Commands of a plain gateway -/

/-- The keys that a command is about. -/
def Exchange.keys (x : Exchange) : List Bytes :=
  match x.command with
  | .get | .set | .getSet => x.args.take 1
  | .del | .exist => x.args
  | _ => []

/-- Two commands that differ at most in who sent them, and have no reply yet. -/
structure Exchange.Alike (x y : Exchange) : Prop where
  command : x.command = y.command
  args : x.args = y.args
  opened : x.response = none
  opened' : y.response = none

/-- Ends of two commands that reply the same where they find the same. -/
inductive Landing.Alike (x y : Exchange) : Landing → Landing → Prop where
  | reply {z z' : Exchange} : z.response = z'.response → Alike x y (.reply z) (.reply z')
  | answer (r : Reply) : Alike x y (.answer x r) (.answer y r)
  | serve {q q' : Cache.Query} : x.query? = some q → (∀ s : Store, s.answer q' = s.answer q) →
      Alike x y (.serve x q) (.serve y q')

theorem Exchange.Alike.eq {x y : Exchange} (h : x.Alike y) : y = { x with client := y.client } := by
  obtain ⟨command, client, args, response⟩ := x
  obtain ⟨command', client', args', response'⟩ := y
  obtain ⟨rfl, rfl, rfl, rfl⟩ := h
  rfl

/-- The store does not ask who sent a command. -/
theorem answer_of (operation : Cache.Operation) (x : Exchange) (client : UInt64) (s : Store) :
    s.answer (.of operation { x with client }) = s.answer (.of operation x) := by
  cases operation <;> rfl

/-- What the connection handler replies to a command under a time limit. -/
def connectionReplyWithin (limit : Option Nat) (x : Exchange) : Reply :=
  if limit = some 0 then .generic Reply.operationTimedOut
  else
    match Handler.connectionReply x with
    | .ok r => r
    | .error _ => .generic Reply.operationError

theorem launchHandler_connection {g : Gateway} {ticket : Nat} {x : Exchange} {moment : Moment}
    {landing : Landing} (hopen : x.response = none)
    (h : (g.launchHandler .connection ticket x).outcome = some (moment, landing)) :
    ∃ z : Exchange, landing = .reply z ∧
      z.response = some (connectionReplyWithin g.limit x) := by
  unfold Gateway.launchHandler at h
  unfold connectionReplyWithin
  by_cases hlimit : g.limit = some 0
  · rw [hlimit] at h
    cases h
    exact ⟨_, rfl, by rw [if_pos hlimit]; rfl⟩
  · rw [if_neg hlimit]
    obtain ⟨ending, hends, -⟩ := connection_ends ticket x
    simp only [hends, course_at_once hlimit] at h
    cases h
    refine ⟨_, rfl, ?_⟩
    simp only [Handler.connection, Handler.answering, respond_of_none hopen] at hends
    cases hr : Handler.connectionReply x with
    | ok r =>
        rw [hr] at hends
        cases hends
        rfl
    | error why =>
        rw [hr] at hends
        cases hends
        rfl

theorem launchQuery_plain {g : Gateway} (hbackend : g.backend = .plain) {q : Cache.Query}
    {ticket : Nat} {x : Exchange} {moment : Moment} {landing : Landing}
    (h : (g.launchQuery q ticket x).outcome = some (moment, landing)) :
    landing = if g.limit = some 0 then .answer x (.generic Reply.operationTimedOut)
      else .serve x q := by
  unfold Gateway.launchQuery at h
  rw [hbackend] at h
  by_cases hlimit : g.limit = some 0
  · rw [hlimit] at h
    cases h
    rw [if_pos hlimit]
  · simp only [Backend.plain, course_at_once hlimit] at h
    cases h
    rw [if_neg hlimit]
    rfl

/-- **Who sends a command does not matter for its end**, and neither does its ticket. -/
theorem Gateway.Plain.alike {g : Gateway} (hplain : g.Plain) {x y : Exchange} (h : x.Alike y)
    {ticket ticket' : Nat} {moment moment' : Moment} {landing landing' : Landing}
    (hx : (g.launch ticket x).outcome = some (moment, landing))
    (hy : (g.launch ticket' y).outcome = some (moment', landing')) :
    Landing.Alike x y landing landing' := by
  unfold Gateway.launch at hx hy
  rw [hplain.lookup] at hx hy
  rw [← h.command] at hy
  by_cases hown : x.command ∈ Handler.connection.commands
  · rw [if_pos hown] at hx hy
    obtain ⟨z, rfl, hz⟩ := launchHandler_connection h.opened hx
    obtain ⟨z', rfl, hz'⟩ := launchHandler_connection h.opened' hy
    refine .reply (hz.trans (hz'.trans ?_).symm)
    rw [h.eq]
    rfl
  · rw [if_neg hown] at hx hy
    have hquery : y.query? = x.command.operation?.map (.of · y) := by
      rw [Exchange.query?, h.command]
    rw [hquery] at hy
    rw [Exchange.query?] at hx
    cases hoperation : x.command.operation? with
    | none =>
        rw [hoperation] at hx hy
        cases hx
        cases hy
        exact .answer _
    | some operation =>
        rw [hoperation] at hx hy
        have hlanding := launchQuery_plain hplain.backend hx
        have hlanding' := launchQuery_plain hplain.backend hy
        rw [hlanding, hlanding']
        by_cases hlimit : g.limit = some 0
        · rw [if_pos hlimit, if_pos hlimit]
          exact .answer _
        · rw [if_neg hlimit, if_neg hlimit]
          refine .serve ?_ fun s => ?_
          · rw [Exchange.query?, hoperation]
            rfl
          · rw [h.eq]
            exact answer_of operation x y.client s

/-! ## What is put out for commands -/

theorem Exchange.keys_of_query {x : Exchange} {q : Cache.Query} (h : x.query? = some q) :
    x.keys = q.subjects := by
  obtain ⟨command, client, args, response⟩ := x
  obtain ⟨operation, hoperation, rfl⟩ := Option.map_eq_some_iff.mp h
  cases command <;> cases hoperation <;> cases args <;> rfl

/-- Only `DBSIZE` asks for the number of keys. -/
theorem operation_ne_size {x : Exchange} {q : Cache.Query} (h : x.query? = some q)
    (hsize : x.command ≠ .dbSize) : q.operation ≠ .size := by
  obtain ⟨operation, hoperation, rfl⟩ := Option.map_eq_some_iff.mp h
  intro hq
  have hsame : operation = .size := by
    cases operation <;> first | rfl | cases hq
  rw [hsame] at hoperation
  cases hcommand : x.command <;> rw [hcommand] at hoperation hsize <;> first
    | exact hsize rfl
    | cases hoperation

section

variable {keys : List Bytes} {s s' t t' : Store} {x y z z' : Exchange} {landing landing' : Landing}

/-- Commands that are alike get the same reply from two stores that answer their query alike. What
relates the stores, before and after an answer, relates them after the commands. -/
theorem Landing.Alike.land_of {R : Store → Store → Prop} (h : Landing.Alike x y landing landing')
    (halike : x.Alike y) (hrelated : R s t)
    (hanswer : ∀ q, x.query? = some q →
      (s.answer q).1 = (t.answer q).1 ∧ R (s.answer q).2 (t.answer q).2)
    (hz : landing.land s = (.ok z, s')) (hz' : landing'.land t = (.ok z', t')) :
    z.response = z'.response ∧ R s' t' := by
  cases h with
  | reply hresponse =>
      cases hz
      cases hz'
      exact ⟨hresponse, hrelated⟩
  | answer r =>
      rw [Landing.land, respond_of_none halike.opened] at hz
      rw [Landing.land, respond_of_none halike.opened'] at hz'
      cases hz
      cases hz'
      exact ⟨rfl, hrelated⟩
  | @serve q q' hq hsame =>
      obtain ⟨hresult, hafter⟩ := hanswer q hq
      simp only [Landing.land, respond_of_none halike.opened] at hz
      simp only [Landing.land, respond_of_none halike.opened', hsame, ← halike.command,
        ← hresult] at hz'
      cases hz
      cases hz'
      exact ⟨rfl, hafter⟩

/-- Commands that are alike get the same reply from stores that agree on their keys. -/
theorem Landing.Alike.land (h : Landing.Alike x y landing landing') (halike : x.Alike y)
    (hagree : s.AgreesOn keys t) (hkeys : ∀ key ∈ x.keys, key ∈ keys)
    (hsize : x.command ≠ .dbSize) (hz : landing.land s = (.ok z, s'))
    (hz' : landing'.land t = (.ok z', t')) :
    z.response = z'.response ∧ s'.AgreesOn keys t' := by
  refine h.land_of halike hagree (fun q hq => ?_) hz hz'
  exact hagree.answer (fun key hkey => hkeys key (Exchange.keys_of_query hq ▸ hkey))
    (operation_ne_size hq hsize)

/-- From one store they leave one store behind. -/
theorem Landing.Alike.land_same (h : Landing.Alike x y landing landing') (halike : x.Alike y)
    (hz : landing.land s = (.ok z, s')) (hz' : landing'.land s = (.ok z', t')) :
    z.response = z'.response ∧ s' = t' :=
  h.land_of halike rfl (fun _ _ => ⟨rfl, rfl⟩) hz hz'

/-- A command about other keys does not disturb the agreement, whatever comes of it. -/
theorem Outcome.agreesOn {g : Gateway} (h : Outcome g x landing)
    (hkeys : ∀ key ∈ x.keys, key ∉ keys) (s : Store) : s.AgreesOn keys (landing.land s).2 := by
  cases h with
  | failed text => exact .refl keys s
  | returned => exact .refl keys s
  | answer r => exact .refl keys s
  | serve hq =>
      exact Store.agreesOn_answer s fun key hkey =>
        hkeys key (Exchange.keys_of_query hq ▸ hkey)

end

end RespGateway
