import Mathlib.Algebra.Group.Int.Defs
import Mathlib.Algebra.Group.Nat.Defs
import RespGateway.Proofs.Serves

/-!
# Commands as queries

Five tables have to line up for a command that the cache serves: how many arguments it
takes, which operation it becomes, what its query carries, what the store asks of a query
and how the answer is framed. They do (`Exchange.decode_serves`). An accepted command can be
read off its query (`Cache.Query.exchange`), the store carries the query out, and what it
has to tell is of the kind that the reply needs, so the reply is no error.
-/

namespace RespGateway

/-! ## Back from queries to exchanges -/

/-- The command that becomes an operation. -/
def Cache.Operation.command : Cache.Operation → Command
  | .get => .get
  | .put => .set
  | .getAndPut => .getSet
  | .remove => .del
  | .containsKey => .exist
  | .size => .dbSize

/-- The exchange that a query is for. -/
def Cache.Query.exchange (q : Cache.Query) : Exchange where
  command := q.operation.command
  client := q.client
  args := q.key.toList ++ q.value.toList ++ q.keys

/-! ## What the store tells -/

/-- What the store tells of an accepted command with these arguments. -/
inductive Tells (s : Store) (args : List Bytes) : Command → Option Cache.Payload → Prop where
  | value {command : Command} (found : Option Bytes) : command = .get ∨ command = .getSet →
      Tells s args command (found.map .bytes)
  | bound : Tells s args .set none
  | count {command : Command} (n : Nat) : command = .del ∨ command = .exist → n ≤ args.length →
      Tells s args command (Store.countPayload (.ofNat n))
  | size : Tells s args .dbSize (Store.countPayload s.keys)

theorem deleteMany_le (s : Store) (keys : List Bytes) : (s.deleteMany keys).1 ≤ keys.length := by
  induction keys generalizing s with
  | nil => exact Nat.le_refl 0
  | cons key keys ih =>
      have hrest := ih (s.delete key).2
      have hone : (s.delete key).1.toNat ≤ 1 := Bool.toNat_le _
      rw [Store.deleteMany, List.length_cons]
      dsimp only
      omega

/-- An accepted command that the cache serves, its query, and what the store tells of it. -/
structure Serves (x : Exchange) (q : Cache.Query) : Prop where
  exchange : q.exchange = x
  tells : ∀ s : Store, ∃ payload, (s.answer q).1 = .success payload ∧
    Tells s x.args x.command payload

theorem serves_of_accepted {x : Exchange} {q : Cache.Query} (hopen : x.response = none)
    (harity : x.command.arity.accepts x.args.length = true) (hq : x.query? = some q) :
    Serves x q := by
  obtain ⟨command, client, args, response⟩ := x
  obtain rfl : response = none := hopen
  obtain ⟨operation, hoperation, rfl⟩ := Option.map_eq_some_iff.mp hq
  -- six commands become operations; how many arguments each takes is what its query carries
  cases command <;> cases hoperation
  case get =>
      obtain ⟨key, rfl⟩ := length_one harity
      exact ⟨rfl, fun s => ⟨_, rfl, .value _ (Or.inl rfl)⟩⟩
  case set =>
      obtain ⟨key, value, rfl⟩ := length_two harity
      exact ⟨rfl, fun s => ⟨_, rfl, .bound⟩⟩
  case getSet =>
      obtain ⟨key, value, rfl⟩ := length_two harity
      exact ⟨rfl, fun s => ⟨_, rfl, .value _ (Or.inr rfl)⟩⟩
  case del =>
      refine ⟨rfl, fun s => ?_⟩
      have hanswer : (s.answer (.of .remove ⟨.del, client, args, none⟩)).1 =
          .success (Store.countPayload (UInt64.ofNat (s.deleteMany args).1)) := by
        simp only [Store.answer, Cache.Query.of, isEmpty_of_atLeast harity]
        rfl
      exact ⟨_, hanswer, .count _ (Or.inl rfl) (deleteMany_le s args)⟩
  case exist =>
      refine ⟨rfl, fun s => ?_⟩
      have hanswer : (s.answer (.of .containsKey ⟨.exist, client, args, none⟩)).1 =
          .success (Store.countPayload (UInt64.ofNat (s.containsMany args))) := by
        simp only [Store.answer, Cache.Query.of, isEmpty_of_atLeast harity]
        rfl
      exact ⟨_, hanswer, .count _ (Or.inr rfl) List.countP_le_length⟩
  case dbSize =>
      obtain rfl : args = [] := by
        simpa [Command.arity, Arity.accepts] using harity
      exact ⟨rfl, fun s => ⟨_, rfl, .size⟩⟩

/-! ## How it is framed -/

/-- A payload is of the kind that a framing needs. -/
inductive Framing.Fits : Framing → Option Cache.Payload → Prop where
  | absent : Fits .bulk none
  | present (data : Bytes) : Fits .bulk (some (.bytes data))
  | nothing : Fits .status none
  | number (n : Int64) : Fits .integer (some (.integer n))

/-- A word read as signed. -/
theorem toInt_word (n : UInt64) :
    n.toInt64.toInt = if 2 * n.toNat < 2 ^ 64 then (n.toNat : Int) else n.toNat - 2 ^ 64 := by
  rw [← Int64.toInt_toBitVec, UInt64.toBitVec_toInt64, BitVec.toInt_eq_toNat_cond]
  rfl

/-- The reply to an accepted command with these arguments. -/
inductive Shaped (s : Store) (args : List Bytes) : Command → Reply → Prop where
  | nil {command : Command} : command = .get ∨ command = .getSet → Shaped s args command .nil
  | bulk {command : Command} (data : Bytes) : command = .get ∨ command = .getSet →
      Shaped s args command (.bulk data)
  | ok : Shaped s args .set .ok
  /-- No more than there are arguments. A list of 2 ^ 63 arguments has no place in memory. -/
  | count {command : Command} (n : Int64) : command = .del ∨ command = .exist →
      n.toInt ≤ args.length → (args.length < 2 ^ 63 → 0 ≤ n.toInt) →
      Shaped s args command (.integer n)
  | size (n : Int64) : (s.keys.toNat < 2 ^ 63 → n.toInt = s.keys.toNat) →
      Shaped s args .dbSize (.integer n)

/-- What the store tells is of the kind that the reply needs. -/
theorem Tells.framed {s : Store} {args : List Bytes} {command : Command}
    {payload : Option Cache.Payload} (h : Tells s args command payload) :
    ∃ framing, command.framing? = some framing ∧ framing.Fits payload ∧
      Shaped s args command (framing.reply payload) := by
  cases h with
  | value found hcommand =>
      have hframing : command.framing? = some .bulk := by
        rcases hcommand with rfl | rfl <;> rfl
      cases found with
      | none => exact ⟨.bulk, hframing, .absent, .nil hcommand⟩
      | some data => exact ⟨.bulk, hframing, .present data, .bulk data hcommand⟩
  | bound => exact ⟨.status, rfl, .nothing, .ok⟩
  | count n hcommand hle =>
      have hframing : command.framing? = some .integer := by
        rcases hcommand with rfl | rfl <;> rfl
      have hnat : (UInt64.ofNat n).toNat ≤ n := by
        rw [UInt64.toNat_ofNat']
        exact Nat.mod_le ..
      refine ⟨.integer, hframing, .number _, .count _ hcommand ?_ fun hlength => ?_⟩
      · rw [toInt_word]
        split <;> omega
      · rw [toInt_word, if_pos (by omega)]
        omega
  | size =>
      refine ⟨.integer, rfl, .number _, .size _ fun hkeys => ?_⟩
      rw [toInt_word, if_pos (by omega)]

theorem Shaped.ne_error {s : Store} {args : List Bytes} {command : Command} {r : Reply}
    (h : Shaped s args command r) (text : String) : r ≠ .error text := by
  cases h <;> exact Reply.noConfusion

/-- **Every accepted command that the cache serves has a query of its own, is carried out whatever
the store holds, and is answered by a reply of the shape that it has, which is no error.** -/
theorem Exchange.decode_serves {client : UInt64} {frame : List Bytes} {x : Exchange}
    (hx : Exchange.decode client frame = .ok x) (hserved : x.command.operation?.isSome = true) :
    ∃ q, x.query? = some q ∧ q.exchange = x ∧
      (∀ client' frame' x', Exchange.decode client' frame' = .ok x' → x'.query? = some q →
        x' = x) ∧
      ∀ s : Store, ∃ payload framing, (s.answer q).1 = .success payload ∧
        x.command.framing? = some framing ∧ framing.Fits payload ∧
        Shaped s x.args x.command ((s.answer q).1.reply x.command) ∧
        ∀ text, (s.answer q).1.reply x.command ≠ .error text := by
  have hserves : ∀ client' frame' x' q, Exchange.decode client' frame' = .ok x' →
      x'.query? = some q → Serves x' q := by
    intro client' frame' x' q hx' hq
    obtain ⟨-, hopen, name, -, -, harity⟩ := Exchange.decode_ok hx'
    exact serves_of_accepted hopen harity hq
  obtain ⟨operation, hoperation⟩ := Option.isSome_iff_exists.mp hserved
  have hq : x.query? = some (.of operation x) := by
    rw [Exchange.query?, hoperation, Option.map_some]
  have hx' := hserves client frame x _ hx hq
  refine ⟨_, hq, hx'.exchange, ?_, fun s => ?_⟩
  · intro client' frame' x' hx'' hq'
    rw [← (hserves client' frame' x' _ hx'' hq').exchange, hx'.exchange]
  · obtain ⟨payload, hanswer, htells⟩ := hx'.tells s
    obtain ⟨framing, hframing, hfits, hshaped⟩ := htells.framed
    have hreply : (s.answer (.of operation x)).1.reply x.command = framing.reply payload := by
      rw [hanswer, Cache.Answer.reply, hframing]
      rfl
    rw [hreply]
    exact ⟨payload, framing, hanswer, hframing, hfits, hshaped, hshaped.ne_error⟩

/-- A `DEL` of one key twice is read off its query, with both arguments. -/
theorem Exchange.decode_serves_del :
    Exchange.decode 7 [[100, 101, 108], [107], [107]] = .ok ⟨.del, 7, [[107], [107]], none⟩ ∧
      ∃ q, Exchange.query? ⟨.del, 7, [[107], [107]], none⟩ = some q ∧
        q.exchange = ⟨.del, 7, [[107], [107]], none⟩ ∧
        ∀ s : Store, Shaped s [[107], [107]] .del ((s.answer q).1.reply .del) := by
  have hx : Exchange.decode 7 [[100, 101, 108], [107], [107]] =
      .ok ⟨.del, 7, [[107], [107]], none⟩ := by decide
  obtain ⟨q, hq, hexchange, -, hanswers⟩ := Exchange.decode_serves hx rfl
  refine ⟨hx, q, hq, hexchange, fun s => ?_⟩
  obtain ⟨payload, framing, -, -, -, hshaped, -⟩ := hanswers s
  exact hshaped

end RespGateway
