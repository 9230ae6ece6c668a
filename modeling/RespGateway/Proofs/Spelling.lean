import RespGateway.Exchange
import RespGateway.Proofs.Characters
import RespGateway.Proofs.Registration

/-!
# Names as clients spell them

A client may write the name of a command in any mix of upper and lower case. `Spells`
says what a spelling is, letter by letter. It is what comparing in upper case finds
(`spells_iff`), and no two commands share one (`spells_unique`): not those of which one
name begins with the other, and not by any byte that is no letter.

So the arguments of a request open one exchange at most, and what becomes of them is
told by four cases (`Opens`), of which one and only one applies.
-/

namespace RespGateway

namespace Command

/-! ## Letters -/

/-- A capital letter, written in upper or lower case. -/
def Letter (capital b : UInt8) : Prop := b = capital ∨ b = capital + 32

/-- A name of a command, each of its letters in upper or lower case. -/
def Spells (command : Command) (name : Bytes) : Prop :=
  List.Forall₂ Letter (Text.Utf8.ofString command.name) name

theorem letter_iff {capital b : UInt8} (hlow : 65 ≤ capital.toNat) (hhigh : capital.toNat ≤ 90) :
    Letter capital b ↔ upper b = capital := by
  have hadd : (capital + 32).toNat = capital.toNat + 32 := by
    rw [UInt8.toNat_add]
    exact Nat.mod_eq_of_lt (by simp only [UInt8.toNat_ofNat]; omega)
  unfold Letter upper
  by_cases hb : 97 ≤ b ∧ b ≤ 122
  · have hsub : (b - 32).toNat = b.toNat - 32 := UInt8.toNat_sub_of_le _ _ (by
      exact UInt8.le_trans (by decide) hb.1)
    simp only [UInt8.le_iff_toNat_le, UInt8.toNat_ofNat] at hb
    rw [if_pos (by simpa only [UInt8.le_iff_toNat_le, UInt8.toNat_ofNat] using hb)]
    simp only [← UInt8.toNat_inj, hsub, hadd]
    omega
  · rw [if_neg hb]
    simp only [UInt8.le_iff_toNat_le, UInt8.toNat_ofNat] at hb
    simp only [← UInt8.toNat_inj, hadd]
    omega

/-- Every name is made of capital letters. -/
theorem capitals (command : Command) :
    ∀ b ∈ Text.Utf8.ofString command.name, 65 ≤ b.toNat ∧ b.toNat ≤ 90 := by
  have hall : (Text.Utf8.ofString command.name).all
      (fun b => decide (65 ≤ b.toNat ∧ b.toNat ≤ 90)) = true := by
    cases command <;> decide
  intro b hb
  exact of_decide_eq_true (List.all_eq_true.mp hall b hb)

theorem map_upper_iff {capitals name : Bytes}
    (h : ∀ b ∈ capitals, 65 ≤ b.toNat ∧ b.toNat ≤ 90) :
    name.map upper = capitals ↔ List.Forall₂ Letter capitals name := by
  induction capitals generalizing name with
  | nil => simp
  | cons capital capitals ih =>
      rw [List.forall_mem_cons] at h
      cases name with
      | nil => simp
      | cons b name =>
          rw [List.map_cons, List.cons.injEq, List.forall₂_cons, ih h.2,
            letter_iff h.1.1 h.1.2]

/-- A spelling is what comparing in upper case finds. -/
theorem spells_iff {command : Command} {name : Bytes} :
    command.Spells name ↔ name.map upper = Text.Utf8.ofString command.name :=
  (map_upper_iff command.capitals).symm

/-- No two commands share a spelling. -/
theorem spells_unique {command command' : Command} {name : Bytes} (h : command.Spells name)
    (h' : command'.Spells name) : command = command' := by
  have hsame : Text.Utf8.ofString command.name = Text.Utf8.ofString command'.name :=
    (spells_iff.mp h).symm.trans (spells_iff.mp h')
  apply eq_of_name
  rw [← Text.Utf8.ofList_lossy_ofString command.name, hsame,
    Text.Utf8.ofList_lossy_ofString command'.name]

/-! ## Commands by name -/

theorem ofName?_eq_some_iff {name : Bytes} {command : Command} :
    ofName? name = some command ↔ command.Spells name := by
  constructor
  · intro h
    have hname := List.find?_some h
    exact spells_iff.mpr (beq_iff_eq.mp hname).symm
  · intro h
    cases hfound : ofName? name with
    | some other =>
        have hother : other.Spells name := by
          have hname := List.find?_some hfound
          exact spells_iff.mpr (beq_iff_eq.mp hname).symm
        rw [spells_unique hother h]
    | none =>
        -- the command stands in the table, so the search would have stopped there
        have hno := List.find?_eq_none.mp hfound command (mem_all command)
        rw [spells_iff.mp h] at hno
        simp at hno

theorem ofName?_eq_none_iff {name : Bytes} :
    ofName? name = none ↔ ∀ command : Command, ¬command.Spells name := by
  rw [Option.eq_none_iff_forall_ne_some]
  exact forall_congr' fun command => not_congr ofName?_eq_some_iff

end Command

namespace Exchange

/-! ## What becomes of the arguments of a request -/

/-- What the arguments of a request are as a command of a client. -/
inductive Opens (client : UInt64) : List Bytes → Except Refusal Exchange → Prop where
  /-- A command with as many arguments as it takes. -/
  | accepted {command : Command} {name : Bytes} {args : List Bytes} : command.Spells name →
      command.arity.accepts args.length = true →
      Opens client (name :: args) (.ok ⟨command, client, args, none⟩)
  /-- A command with too few arguments or too many. -/
  | wrongArity {command : Command} {name : Bytes} {args : List Bytes} : command.Spells name →
      command.arity.accepts args.length = false →
      Opens client (name :: args) (.error (.wrongArity command))
  /-- A name that no command has. -/
  | unknown {name : Bytes} (args : List Bytes) : (∀ command : Command, ¬command.Spells name) →
      Opens client (name :: args) (.error (.unknownCommand (echoed name)))
  /-- No name at all. -/
  | missing : Opens client [] (.error (.unknownCommand ""))

variable {client : UInt64} {frame : List Bytes}

theorem Opens.decode_eq {r : Except Refusal Exchange} (h : Opens client frame r) :
    decode client frame = r := by
  cases h with
  | accepted hname harity =>
      rw [decode, Command.ofName?_eq_some_iff.mpr hname]
      exact if_pos harity
  | wrongArity hname harity =>
      rw [decode, Command.ofName?_eq_some_iff.mpr hname]
      exact if_neg (by simp [harity])
  | unknown args hname => rw [decode, Command.ofName?_eq_none_iff.mpr hname]
  | missing => rfl

/-- One of the cases always applies. -/
theorem opens_decode (client : UInt64) (frame : List Bytes) :
    Opens client frame (decode client frame) := by
  cases frame with
  | nil => exact .missing
  | cons name args =>
      rw [decode]
      cases hname : Command.ofName? name with
      | none => exact .unknown args (Command.ofName?_eq_none_iff.mp hname)
      | some command =>
          have hspells := Command.ofName?_eq_some_iff.mp hname
          dsimp only
          by_cases harity : command.arity.accepts args.length = true
          · rw [if_pos harity]
            exact .accepted hspells harity
          · rw [if_neg harity]
            exact .wrongArity hspells (by simpa using harity)

theorem decode_eq_iff {r : Except Refusal Exchange} :
    decode client frame = r ↔ Opens client frame r := by
  constructor
  · intro h
    rw [← h]
    exact opens_decode client frame
  · exact Opens.decode_eq

theorem decode_eq_ok_iff {x : Exchange} :
    decode client frame = .ok x ↔ ∃ name,
      frame = name :: x.args ∧ name.map Command.upper = Text.Utf8.ofString x.command.name ∧
        x.command.arity.accepts x.args.length = true ∧ x.client = client ∧ x.response = none := by
  rw [decode_eq_iff]
  constructor
  · intro h
    cases h with
    | accepted hname harity => exact ⟨_, rfl, Command.spells_iff.mp hname, harity, rfl, rfl⟩
  · rintro ⟨name, rfl, hname, harity, rfl, hresponse⟩
    have hx : x = ⟨x.command, x.client, x.args, none⟩ := by rw [← hresponse]
    have hopens : Opens x.client (name :: x.args) (.ok ⟨x.command, x.client, x.args, none⟩) :=
      .accepted (Command.spells_iff.mpr hname) harity
    rwa [← hx] at hopens

/-- **What a request is as a command.** It opens an exchange exactly if its first argument spells
the name of a command and the others are as many as the command takes; the exchange is for that
command, client and those arguments and has no reply. Any spelling of the name in front of the
arguments opens the same exchange again. A name that spells no command, or none at all, is refused
as unknown; a command with another number of arguments is refused as such. No request is both. -/
theorem decode_named (client : UInt64) (frame : List Bytes) :
    (∀ x, decode client frame = .ok x ↔ ∃ name,
      frame = name :: x.args ∧ name.map Command.upper = Text.Utf8.ofString x.command.name ∧
        x.command.arity.accepts x.args.length = true ∧ x.client = client ∧ x.response = none) ∧
    (∀ x, decode client frame = .ok x → ∀ name, x.command.Spells name →
      decode client (name :: x.args) = .ok x) ∧
    ∀ why, decode client frame = .error why ↔ Opens client frame (.error why) := by
  refine ⟨fun x => decode_eq_ok_iff, fun x hx name hname => ?_, fun why => decode_eq_iff⟩
  obtain ⟨-, -, -, harity, hclient, hresponse⟩ := decode_eq_ok_iff.mp hx
  exact decode_eq_ok_iff.mpr
    ⟨name, rfl, Command.spells_iff.mp hname, harity, hclient, hresponse⟩

/-- `GetSet k v` is a command, and opens the same exchange as `gETSET k v`. With one argument less
it is refused for their number, and as `GETSE` it is not known. -/
theorem decode_named_getset :
    decode 7 [[71, 101, 116, 83, 101, 116], [107], [118]] =
        .ok ⟨.getSet, 7, [[107], [118]], none⟩ ∧
      decode 7 [[103, 69, 84, 83, 69, 84], [107], [118]] =
        .ok ⟨.getSet, 7, [[107], [118]], none⟩ ∧
      decode 7 [[71, 101, 116, 83, 101, 116], [107]] = .error (.wrongArity .getSet) ∧
      decode 7 [[71, 69, 84, 83, 69], [107]] = .error (.unknownCommand "GETSE") := by
  have hspells : Command.getSet.Spells [103, 69, 84, 83, 69, 84] :=
    Command.spells_iff.mpr (by decide)
  have hopened := (decode_named 7 [[71, 101, 116, 83, 101, 116], [107], [118]]).1
    ⟨.getSet, 7, [[107], [118]], none⟩ |>.mpr ⟨_, rfl, by decide, by decide, rfl, rfl⟩
  refine ⟨hopened, (decode_named 7 _).2.1 _ hopened _ hspells, ?_, ?_⟩
  · refine (decode_named 7 _).2.2 _ |>.mpr (.wrongArity ?_ (by decide))
    exact Command.spells_iff.mpr (by decide)
  · decide

end Exchange

end RespGateway
