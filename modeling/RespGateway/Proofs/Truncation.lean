import RespGateway.Proofs.Spelling

/-!
# Names that are cut off

A name that no command has is echoed, but no more than its first bytes. The cut does not
look at characters, and the name need not be text at all: what is echoed is whatever the
lossy reader makes of the bytes in front of the cut.

Of any bytes it makes a text at most three times as long (`length_lossy`): each
replacement character stands for one byte or more. Of a text that is cut it makes the
longest run of whole characters in front of the cut (`Fits`), and one replacement
character behind them if the cut fell inside a character (`CutsInside`,
`lossy_take_encode`).
-/

namespace RespGateway

namespace Text.Utf8

/-! ## How long a text can be -/

/-- How many bytes the text may still grow by for what is under way. -/
def allowance (p : Option Pending) : Nat := if p.isSome then 3 else 0

theorem length_encodeChar_le (c : Char) : (encodeChar c).length ≤ 4 := by
  unfold encodeChar
  dsimp only
  split
  · exact Nat.le_add_left 1 3
  · split
    · exact Nat.le_add_left 2 2
    · split
      · exact Nat.le_add_left 3 1
      · exact Nat.le_refl 4

theorem length_encode_append (cs ds : List Char) :
    (encode (cs ++ ds)).length = (encode cs).length + (encode ds).length := by
  rw [encode, List.flatMap_append, List.length_append]
  rfl

theorem length_encode_singleton (c : Char) : (encode [c]).length = (encodeChar c).length := by
  simp [encode]

theorem length_encode_reverse (cs : List Char) :
    (encode cs.reverse).length = (encode cs).length :=
  ((List.reverse_perm cs).flatMap_right encodeChar).length_eq

theorem length_absorbFirst (b : UInt8) :
    (encode (absorbFirst b).1).length + allowance (absorbFirst b).2 ≤ 3 := by
  unfold absorbFirst
  rcases start_cases b with ⟨hb, hstart⟩ | ⟨-, hbeyond⟩
  · -- an ASCII character is one byte
    have hchar : (Char.ofNat b.toNat).toNat = b.toNat := toNat_ofNat (Or.inl (by omega))
    rw [hstart]
    dsimp only
    rw [length_encode_singleton, encodeChar_one (by omega)]
    exact Nat.le_add_left 1 2
  · cases hstart : start b with
    | char c =>
        rw [hstart] at hbeyond
        cases hbeyond
    | more p => exact Nat.le_refl 3
    | refused => decide

/-- One more byte makes the text longer by three bytes at most, if a character under way is taken
to be worth three. -/
theorem length_absorb (p : Option Pending) (b : UInt8) :
    (encode (absorb p b).1).length + allowance (absorb p b).2 ≤ allowance p + 3 := by
  cases p with
  | none => exact length_absorbFirst b
  | some p =>
      unfold absorb
      dsimp only
      cases p.next b with
      | char c =>
          have hc := length_encodeChar_le c
          dsimp only
          rw [length_encode_singleton]
          simp only [allowance, Option.isSome_none, Option.isSome_some, if_true, Bool.false_eq_true,
            if_false]
          omega
      | more q => simp [allowance, encode]
      | refused =>
          -- three bytes for what was under way, and the byte begins anew
          have hfirst := length_absorbFirst b
          have hreplacement : (encodeChar replacement).length = 3 := by decide
          dsimp only
          rw [encode_cons, List.length_append, hreplacement]
          simp only [allowance, Option.isSome_some, if_true] at hfirst ⊢
          omega

theorem length_lossyFrom (done : List Char) (p : Option Pending) (s : Bytes) :
    (encode (lossyFrom done p s)).length ≤ (encode done).length + allowance p + 3 * s.length := by
  induction s generalizing done p with
  | nil =>
      cases p with
      | none =>
          rw [lossyFrom, length_encode_reverse]
          omega
      | some p =>
          have hreplacement : (encodeChar replacement).length = 3 := by decide
          rw [lossyFrom, length_encode_reverse, encode_cons, List.length_append, hreplacement]
          simp only [allowance, Option.isSome_some, if_true]
          omega
  | cons b s ih =>
      have hstep := length_absorb p b
      have hrest := ih ((absorb p b).1.reverse ++ done) (absorb p b).2
      rw [length_encode_append, length_encode_reverse] at hrest
      rw [lossyFrom_cons, List.length_cons]
      omega

/-- **Bytes read as a text become at most three times as many.** -/
theorem length_lossy (s : Bytes) : (encode (lossy s)).length ≤ 3 * s.length := by
  have h := length_lossyFrom [] none s
  rw [show (encode []).length + allowance none = 0 from rfl, Nat.zero_add] at h
  exact h

/-! ## Characters that are cut off -/

/-- The first bytes of a character, if they are not all, are read as one replacement. -/
theorem Makes.lossyFrom_part {p : Option Pending} {u v : Bytes} {c : Char}
    (h : Makes p (u ++ v) c) (hv : v ≠ []) (hbegun : p.isSome ∨ u ≠ []) (done : List Char) :
    lossyFrom done p u = (replacement :: done).reverse := by
  induction u generalizing p with
  | nil =>
      cases p with
      | none => simp at hbegun
      | some p => rfl
  | cons b u ih =>
      rw [List.cons_append] at h
      generalize hrest : u ++ v = rest at h
      cases h with
      | last _ => exact absurd (List.append_eq_nil_iff.mp hrest).2 hv
      | more hmore hmakes =>
          rw [lossyFrom_cons, absorb_of_more hmore]
          exact ih (hrest ▸ hmakes) (Or.inl rfl)

/-! ## Texts that are cut -/

/-- The longest run of whole characters at the front of a text that takes at most `limit` bytes. -/
structure Fits (limit : Nat) (cs run : List Char) : Prop where
  front : run <+: cs
  length : (encode run).length ≤ limit
  longest : ∀ other, other <+: cs → (encode other).length ≤ limit → other <+: run

/-- A cut behind the first `limit` bytes of a text falls inside one of its characters. -/
def CutsInside (limit : Nat) (cs : List Char) : Prop :=
  ∃ before c behind, cs = before ++ c :: behind ∧ (encode before).length < limit ∧
    limit < (encode (before ++ [c])).length

theorem length_encode_le {cs ds : List Char} (h : cs <+: ds) :
    (encode cs).length ≤ (encode ds).length := by
  obtain ⟨behind, rfl⟩ := h
  rw [length_encode_append]
  exact Nat.le_add_right _ _

/-- Either all characters of a text fit, or some do and the next does not. -/
theorem fits_or_past (limit : Nat) (cs : List Char) :
    (encode cs).length ≤ limit ∨ ∃ run c behind, cs = run ++ c :: behind ∧
      (encode run).length ≤ limit ∧ limit < (encode (run ++ [c])).length := by
  induction cs generalizing limit with
  | nil => exact Or.inl (Nat.zero_le _)
  | cons c cs ih =>
      by_cases hc : limit < (encodeChar c).length
      · exact Or.inr ⟨[], c, cs, rfl, Nat.zero_le _, by simpa [encode] using hc⟩
      · have hcons : ∀ ds, (encode (c :: ds)).length =
            (encodeChar c).length + (encode ds).length := by
          intro ds
          rw [encode_cons, List.length_append]
        rcases ih (limit - (encodeChar c).length) with hall | ⟨run, d, behind, rfl, hrun, hpast⟩
        · refine Or.inl ?_
          rw [hcons]
          omega
        · refine Or.inr ⟨c :: run, d, behind, rfl, ?_, ?_⟩
          · rw [hcons]
            omega
          · rw [List.cons_append, hcons]
            omega

/-- A run of characters at the front of a text ends before a character or reaches past it. -/
theorem prefix_or_past {run other behind : List Char} {c : Char}
    (h : other <+: run ++ c :: behind) : other <+: run ∨ run ++ [c] <+: other := by
  have hmiddle : run ++ [c] <+: run ++ c :: behind := ⟨behind, by simp⟩
  by_cases hlen : other.length ≤ run.length
  · exact Or.inl (List.prefix_of_prefix_length_le h (List.prefix_append _ _) hlen)
  · refine Or.inr (List.prefix_of_prefix_length_le hmiddle h ?_)
    rw [List.length_append, List.length_singleton]
    omega

section

variable {limit : Nat} {run behind : List Char} {c : Char}

/-- The run that fits in front of a character that does not fit with it is the longest. -/
theorem fits_run (hrun : (encode run).length ≤ limit)
    (hpast : limit < (encode (run ++ [c])).length) : Fits limit (run ++ c :: behind) run where
  front := List.prefix_append _ _
  length := hrun
  longest other hother hlen := by
    rcases prefix_or_past hother with hin | hout
    · exact hin
    · have hle := length_encode_le hout
      omega

/-- No other character reaches over the cut than the first that does not fit. -/
theorem cutsInside_iff (hrun : (encode run).length ≤ limit)
    (hpast : limit < (encode (run ++ [c])).length) :
    CutsInside limit (run ++ c :: behind) ↔ (encode run).length < limit := by
  constructor
  · rintro ⟨before, d, rest, hcs, hbefore, hover⟩
    have hfront : before <+: run ++ c :: behind := ⟨d :: rest, hcs.symm⟩
    have hnext : before ++ [d] <+: run ++ c :: behind := ⟨rest, by simp [hcs]⟩
    rcases prefix_or_past hnext with hin | hout
    · have hle := length_encode_le hin
      omega
    · -- the character lies behind `run`, and what is before it fits
      have hle := hout.length_le
      simp only [List.length_append, List.length_singleton] at hle
      have hrunBefore := List.prefix_of_prefix_length_le
        (List.prefix_append run (c :: behind)) hfront (by omega)
      exact Nat.lt_of_le_of_lt (length_encode_le hrunBefore) hbefore
  · intro hless
    exact ⟨run, c, behind, rfl, hless, hpast⟩

/-- A cut leaves what fits, and some bytes of the first character that does not. -/
theorem take_encode (hrun : (encode run).length ≤ limit)
    (hpast : limit < (encode (run ++ [c])).length) :
    (encode (run ++ c :: behind)).take limit =
      encode run ++ (encodeChar c).take (limit - (encode run).length) := by
  have hsplit : encode (run ++ c :: behind) = encode run ++ (encodeChar c ++ encode behind) := by
    rw [encode, List.flatMap_append, List.flatMap_cons]
    rfl
  rw [length_encode_append, length_encode_singleton] at hpast
  obtain ⟨kept, rfl⟩ := Nat.exists_eq_add_of_le hrun
  rw [hsplit, List.take_length_add_append, Nat.add_sub_cancel_left,
    List.take_append_of_le_length (by omega)]

/-- Some bytes of a character behind a text, but not all of them, are read as one replacement. -/
theorem lossy_encode_part {kept : Nat} (hkept : 0 < kept) (hpart : kept < (encodeChar c).length) :
    lossy (encode run ++ (encodeChar c).take kept) = run ++ [replacement] := by
  have hmakes : Makes none ((encodeChar c).take kept ++ (encodeChar c).drop kept) c := by
    rw [List.take_append_drop]
    exact makes_encodeChar c
  have hdrop : (encodeChar c).drop kept ≠ [] := by
    intro hnil
    have hle := List.drop_eq_nil_iff.mp hnil
    omega
  have hbegun : (encodeChar c).take kept ≠ [] := by
    intro hnil
    rcases List.take_eq_nil_iff.mp hnil with hzero | hnone
    · omega
    · exact encodeChar_ne_nil c hnone
  rw [lossy, lossyFrom_encode, hmakes.lossyFrom_part hdrop (Or.inr hbegun)]
  simp

end

/-- **A text that is cut is read as its longest run of whole characters**, and one replacement
behind them if the cut fell inside a character. -/
theorem lossy_take_encode (limit : Nat) (cs : List Char) :
    ∃ run, Fits limit cs run ∧
      (CutsInside limit cs → lossy ((encode cs).take limit) = run ++ [replacement]) ∧
      (¬CutsInside limit cs → lossy ((encode cs).take limit) = run) := by
  rcases fits_or_past limit cs with hall | ⟨run, c, behind, rfl, hrun, hpast⟩
  · -- nothing is cut off
    have hread : lossy ((encode cs).take limit) = cs := by
      rw [List.take_of_length_le hall, lossy_encode]
    refine ⟨cs, ⟨List.prefix_rfl, hall, fun other hother _ => hother⟩, ?_, fun _ => hread⟩
    rintro ⟨before, c, behind, rfl, -, hpast⟩
    have hin : before ++ [c] <+: before ++ c :: behind := ⟨behind, by simp⟩
    have hle := length_encode_le hin
    omega
  · refine ⟨run, fits_run hrun hpast, fun hcuts => ?_, fun hwhole => ?_⟩
    · have hless := (cutsInside_iff hrun hpast).mp hcuts
      rw [take_encode hrun hpast]
      rw [length_encode_append, length_encode_singleton] at hpast
      exact lossy_encode_part (by omega) (by omega)
    · have hexact : limit - (encode run).length = 0 := by
        by_contra hne
        exact hwhole ((cutsInside_iff hrun hpast).mpr (by omega))
      rw [take_encode hrun hpast, hexact, List.take_zero, List.append_nil, lossy_encode]

end Text.Utf8

namespace Exchange

open Text.Utf8

/-! ## Names that no command has -/

variable {client : UInt64} {frame : List Bytes} {shown : String}

theorem length_name_lt (command : Command) :
    (ofString command.name).length < maxEchoed := by
  cases command <;> decide

theorem not_spells_nil (command : Command) : ¬command.Spells [] := by
  have hlen : (ofString command.name).length ≠ 0 := by cases command <;> decide
  exact fun h => hlen h.length_eq

/-- A request is refused as unknown exactly if its name is none of a command; a request without a
name counts as one with an empty name. -/
theorem decode_eq_unknown_iff :
    decode client frame = .error (.unknownCommand shown) ↔
      (∀ command : Command, ¬command.Spells (frame.headD [])) ∧
        shown = echoed (frame.headD []) := by
  rw [decode_eq_iff]
  constructor
  · intro h
    cases h with
    | unknown args hname => exact ⟨hname, rfl⟩
    | missing => exact ⟨not_spells_nil, rfl⟩
  · rintro ⟨hname, rfl⟩
    cases frame with
    | nil => exact .missing
    | cons name args => exact .unknown args hname

/-- A name that agrees with an unknown one as far as it is echoed is unknown too: no command has a
name as long as that. -/
theorem not_spells_of_take {name name' : Bytes} (h : name'.take maxEchoed = name.take maxEchoed)
    (hname : ∀ command : Command, ¬command.Spells name) (command : Command) :
    ¬command.Spells name' := by
  intro hspells
  have hlen : name'.length < maxEchoed := by
    rw [← hspells.length_eq]
    exact length_name_lt command
  rw [List.take_of_length_le (Nat.le_of_lt hlen)] at h
  have hshort : name.length ≤ maxEchoed := by
    by_contra hlong
    rw [h, List.length_take] at hlen
    omega
  rw [List.take_of_length_le hshort] at h
  exact hname command (h ▸ hspells)

/-- What a request refused as unknown is told. -/
structure Echoes (frame : List Bytes) (shown : String) : Prop where
  /-- The echo is all that the reply has of the request. -/
  told : (Refusal.unknownCommand shown).reply = .error ("ERR unknown command '" ++ shown ++ "'")
  /-- Nothing but the first 128 bytes of the name counts: not the rest of it, not the arguments, not
  the client. -/
  decides : ∀ (client : UInt64) (other : List Bytes),
    (other.headD []).take 128 = (frame.headD []).take 128 →
      decode client other = .error (.unknownCommand shown)
  bounded : (ofString shown).length ≤ 384
  /-- If these bytes are a text, it is this text. -/
  faithful : ∀ text : String, (frame.headD []).take 128 = ofString text → shown = text
  /-- If the name is a text, its whole characters are shown as far as they fit, and one replacement
  behind them exactly if the cut falls inside a character. -/
  whole : ∀ text : String, frame.headD [] = ofString text →
    ∃ run, Fits 128 text.toList run ∧
      (CutsInside 128 text.toList → shown = String.ofList (run ++ ['\uFFFD'])) ∧
      (¬CutsInside 128 text.toList → shown = String.ofList run)

/-- **The echo of an unknown name is bounded and faithful.** -/
theorem echoes_of_unknown (h : decode client frame = .error (.unknownCommand shown)) :
    Echoes frame shown := by
  obtain ⟨hname, hshown⟩ := decode_eq_unknown_iff.mp h
  have hread : shown = String.ofList (lossy ((frame.headD []).take 128)) := hshown
  exact
    { told := rfl
      decides := by
        intro client other hother
        refine decode_eq_unknown_iff.mpr ⟨not_spells_of_take hother hname, ?_⟩
        rw [hread, echoed, ← hother]
        rfl
      bounded := by
        have hlen := length_lossy ((frame.headD []).take 128)
        rw [List.length_take] at hlen
        rw [hread, ofString, String.toList_ofList]
        omega
      faithful := by
        intro text htext
        rw [hread, htext, ofList_lossy_ofString]
      whole := by
        intro text htext
        obtain ⟨run, hfits, hinside, hbetween⟩ := lossy_take_encode 128 text.toList
        rw [hread, htext]
        refine ⟨run, hfits, fun hcuts => ?_, fun hcuts => ?_⟩
        · exact congrArg String.ofList (hinside hcuts)
        · exact congrArg String.ofList (hbetween hcuts) }

/-- A name of 130 bytes that is cut inside its last character but one. -/
theorem echoes_of_unknown_cut :
    decode 1 [List.replicate 127 120 ++ [195, 169, 120], [107]] =
        .error (.unknownCommand (String.ofList (List.replicate 127 'x' ++ ['\uFFFD']))) ∧
      Echoes [List.replicate 127 120 ++ [195, 169, 120], [107]]
        (String.ofList (List.replicate 127 'x' ++ ['\uFFFD'])) := by
  have h : decode 1 [List.replicate 127 120 ++ [195, 169, 120], [107]] =
      .error (.unknownCommand (String.ofList (List.replicate 127 'x' ++ ['\uFFFD']))) := by
    decide +kernel
  exact ⟨h, echoes_of_unknown h⟩

end Exchange

end RespGateway
