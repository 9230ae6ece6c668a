import RespGateway.Proofs.Ascii

/-!
# Characters in UTF-8

The readers of UTF-8 go from byte to byte, with a character under way between two of
them. `Makes p s c` says what they do over a whole character: from `p` under way, the
bytes `s` are read as `c`. The bytes that a character is written with are read as that
character (`makes_encodeChar`), and no others are (`Makes.eq_encodeChar`). So a list
without a fault is exactly one that was written (`fault?_eq_none_iff`), and it is read
back as it was (`lossy_encode`).
-/

namespace RespGateway.Text.Utf8

/-- What one more byte makes of the character under way, or of none. -/
def Step.of : Option Pending → UInt8 → Step
  | none, b => start b
  | some p, b => p.next b

/-- With this character under way, or none, these bytes are read as a character. -/
inductive Makes : Option Pending → Bytes → Char → Prop where
  | last {p : Option Pending} {b : UInt8} {c : Char} : Step.of p b = .char c → Makes p [b] c
  | more {p : Option Pending} {b : UInt8} {q : Pending} {s : Bytes} {c : Char} :
      Step.of p b = .more q → Makes (some q) s c → Makes p (b :: s) c

/-! ## The bytes of one character -/

section

variable {c : Char}

theorem encodeChar_one (h : c.toNat < 0x80) : encodeChar c = [UInt8.ofNat c.toNat] := if_pos h

theorem encodeChar_two (hlow : 0x80 ≤ c.toNat) (hhigh : c.toNat < 0x800) :
    encodeChar c = [UInt8.ofNat (0xC0 + c.toNat / 64), UInt8.ofNat (0x80 + c.toNat % 64)] := by
  unfold encodeChar
  dsimp only
  rw [if_neg (by omega), if_pos hhigh]

theorem encodeChar_three (hlow : 0x800 ≤ c.toNat) (hhigh : c.toNat < 0x10000) :
    encodeChar c = [UInt8.ofNat (0xE0 + c.toNat / 4096), UInt8.ofNat (0x80 + c.toNat / 64 % 64),
      UInt8.ofNat (0x80 + c.toNat % 64)] := by
  unfold encodeChar
  dsimp only
  rw [if_neg (by omega), if_neg (by omega), if_pos hhigh]

theorem encodeChar_four (hlow : 0x10000 ≤ c.toNat) :
    encodeChar c = [UInt8.ofNat (0xF0 + c.toNat / 262144),
      UInt8.ofNat (0x80 + c.toNat / 4096 % 64), UInt8.ofNat (0x80 + c.toNat / 64 % 64),
      UInt8.ofNat (0x80 + c.toNat % 64)] := by
  unfold encodeChar
  dsimp only
  rw [if_neg (by omega), if_neg (by omega), if_neg (by omega)]

end

theorem encodeChar_ascii {c : Char} {b : UInt8} (hb : b.toNat < 0x80) (h : c.toNat = b.toNat) :
    encodeChar c = [b] := by
  rw [encodeChar_one (by omega), h, UInt8.ofNat_toNat]

theorem encodeChar_ne_nil (c : Char) : encodeChar c ≠ [] := by
  unfold encodeChar
  dsimp only
  repeat' split
  all_goals simp

/-! ## What is written is read -/

theorem start_two {h : Nat} (hlow : 2 ≤ h) (hhigh : h < 32) :
    start (UInt8.ofNat (0xC0 + h)) = .more ⟨1, 0x80, 0xBF, h, 1⟩ := by
  have hbyte : (UInt8.ofNat (0xC0 + h)).toNat = 0xC0 + h := by
    rw [UInt8.toNat_ofNat', Nat.mod_eq_of_lt (by omega)]
  unfold start
  dsimp only
  rw [hbyte, if_neg (by omega), if_neg (by omega), if_pos (by omega), Nat.add_sub_cancel_left]

/-- The first of three bytes allows all second bytes but those of shorter characters and those of
surrogates. -/
theorem start_three {h m : Nat} (hh : h < 16) (hm : m < 64) (hshort : h = 0 → 32 ≤ m)
    (hsurrogate : h = 13 → m < 32) :
    ∃ low high, start (UInt8.ofNat (0xE0 + h)) = .more ⟨2, low, high, h, 1⟩ ∧
      low ≤ 0x80 + m ∧ 0x80 + m ≤ high := by
  have hbyte : (UInt8.ofNat (0xE0 + h)).toNat = 0xE0 + h := by
    rw [UInt8.toNat_ofNat', Nat.mod_eq_of_lt (by omega)]
  unfold start
  dsimp only
  rw [hbyte, if_neg (by omega), if_neg (by omega), if_neg (by omega)]
  by_cases hzero : h = 0
  · rw [if_pos (by omega), hzero]
    exact ⟨_, _, rfl, by omega, by omega⟩
  · rw [if_neg (by omega)]
    by_cases hthirteen : h = 13
    · rw [if_pos (by omega), hthirteen]
      exact ⟨_, _, rfl, by omega, by omega⟩
    · rw [if_neg (by omega), if_pos (by omega), Nat.add_sub_cancel_left]
      exact ⟨_, _, rfl, by omega, by omega⟩

/-- The first of four bytes allows all second bytes but those of shorter characters and those past
the last character. -/
theorem start_four {h m : Nat} (hh : h < 5) (hm : m < 64) (hshort : h = 0 → 16 ≤ m)
    (hlast : h = 4 → m < 16) :
    ∃ low high, start (UInt8.ofNat (0xF0 + h)) = .more ⟨3, low, high, h, 1⟩ ∧
      low ≤ 0x80 + m ∧ 0x80 + m ≤ high := by
  have hbyte : (UInt8.ofNat (0xF0 + h)).toNat = 0xF0 + h := by
    rw [UInt8.toNat_ofNat', Nat.mod_eq_of_lt (by omega)]
  unfold start
  dsimp only
  rw [hbyte, if_neg (by omega), if_neg (by omega), if_neg (by omega), if_neg (by omega),
    if_neg (by omega), if_neg (by omega)]
  by_cases hzero : h = 0
  · rw [if_pos (by omega), hzero]
    exact ⟨_, _, rfl, by omega, by omega⟩
  · rw [if_neg (by omega)]
    by_cases hfour : h = 4
    · rw [if_neg (by omega), if_pos (by omega), hfour]
      exact ⟨_, _, rfl, by omega, by omega⟩
    · rw [if_pos (by omega), Nat.add_sub_cancel_left]
      exact ⟨_, _, rfl, by omega, by omega⟩

section

variable {low high bits count m : Nat} {c : Char} (hm : m < 64) (hlow : low ≤ 0x80 + m)
  (hhigh : 0x80 + m ≤ high)

include hm hlow hhigh

/-- A character that owes more than one byte takes one. -/
theorem makes_owed {owed : Nat} {s : Bytes}
    (h : Makes (some ⟨owed + 1, 0x80, 0xBF, bits * 64 + m, count + 1⟩) s c) :
    Makes (some ⟨owed + 2, low, high, bits, count⟩) (UInt8.ofNat (0x80 + m) :: s) c := by
  refine .more ?_ h
  rw [Step.of, Pending.next, UInt8.toNat_ofNat', Nat.mod_eq_of_lt (by omega)]
  dsimp only
  rw [if_neg (by omega), if_neg (by omega), Nat.add_sub_cancel_left]
  rfl

/-- A character that owes one byte is complete with it. -/
theorem makes_last (hc : Char.ofNat (bits * 64 + m) = c) :
    Makes (some ⟨1, low, high, bits, count⟩) [UInt8.ofNat (0x80 + m)] c := by
  refine .last ?_
  rw [Step.of, Pending.next, UInt8.toNat_ofNat', Nat.mod_eq_of_lt (by omega)]
  dsimp only
  rw [if_neg (by omega), if_pos (by omega), Nat.add_sub_cancel_left, hc]

end

theorem makes_encodeChar (c : Char) : Makes none (encodeChar c) c := by
  have hvalid : c.toNat < 0xD800 ∨ 0xDFFF < c.toNat ∧ c.toNat < 0x110000 := c.valid
  have hchar : ∀ {m : Nat}, m = c.toNat → Char.ofNat m = c := by
    rintro m rfl
    exact Char.ofNat_toNat c
  by_cases hone : c.toNat < 0x80
  · rw [encodeChar_one hone]
    refine .last ?_
    rw [Step.of, start, UInt8.toNat_ofNat', Nat.mod_eq_of_lt (by omega), if_pos hone, hchar rfl]
  by_cases htwo : c.toNat < 0x800
  · rw [encodeChar_two (by omega) htwo]
    exact .more (start_two (by omega) (by omega))
      (makes_last (by omega) (by omega) (by omega) (hchar (by omega)))
  by_cases hthree : c.toNat < 0x10000
  · obtain ⟨low, high, hstart, hlow, hhigh⟩ :=
      start_three (h := c.toNat / 4096) (m := c.toNat / 64 % 64) (by omega) (by omega) (by omega)
        (by omega)
    rw [encodeChar_three (by omega) hthree]
    exact .more hstart (makes_owed (by omega) hlow hhigh
      (makes_last (by omega) (by omega) (by omega) (hchar (by omega))))
  · obtain ⟨low, high, hstart, hlow, hhigh⟩ :=
      start_four (h := c.toNat / 262144) (m := c.toNat / 4096 % 64) (by omega) (by omega)
        (by omega) (by omega)
    rw [encodeChar_four (by omega)]
    exact .more hstart (makes_owed (by omega) hlow hhigh (makes_owed (by omega) (by omega)
      (by omega) (makes_last (by omega) (by omega) (by omega) (hchar (by omega)))))

/-! ## What is read was written -/

/-- A byte that continues a character lies in its bounds and adds six bits. -/
theorem Pending.next_eq_char {p : Pending} {b : UInt8} {c : Char} (h : p.next b = .char c) :
    p.owed ≤ 1 ∧ p.low ≤ b.toNat ∧ b.toNat ≤ p.high ∧
      c = Char.ofNat (p.bits * 64 + (b.toNat - 0x80)) := by
  unfold Pending.next at h
  dsimp only at h
  split at h
  · cases h
  · split at h
    · exact ⟨by omega, by omega, by omega, (Step.char.inj h).symm⟩
    · cases h

theorem Pending.next_eq_more {p q : Pending} {b : UInt8} (h : p.next b = .more q) :
    1 < p.owed ∧ p.low ≤ b.toNat ∧ b.toNat ≤ p.high ∧
      q = ⟨p.owed - 1, 0x80, 0xBF, p.bits * 64 + (b.toNat - 0x80), p.count + 1⟩ := by
  unfold Pending.next at h
  dsimp only at h
  split at h
  · cases h
  · split at h
    · cases h
    · exact ⟨by omega, by omega, by omega, (Step.more.inj h).symm⟩

/-- What the first byte says of a longer character: how many bytes it owes, its highest bits, and
which second bytes it allows. -/
theorem start_eq_more {b : UInt8} {p : Pending} (h : start b = .more p) :
    0x80 ≤ p.low ∧ p.high ≤ 0xBF ∧
      ((p.owed = 1 ∧ b.toNat = 0xC0 + p.bits ∧ 2 ≤ p.bits ∧ p.bits < 32) ∨
        (p.owed = 2 ∧ b.toNat = 0xE0 + p.bits ∧ p.bits < 16 ∧ (p.bits = 0 → 0xA0 ≤ p.low) ∧
          (p.bits = 13 → p.high ≤ 0x9F)) ∨
        (p.owed = 3 ∧ b.toNat = 0xF0 + p.bits ∧ p.bits < 5 ∧ (p.bits = 0 → 0x90 ≤ p.low) ∧
          (p.bits = 4 → p.high ≤ 0x8F))) := by
  unfold start at h
  dsimp only at h
  repeat' split at h
  all_goals cases h
  all_goals dsimp only
  all_goals omega

section

variable {p : Pending} {s : Bytes} {c : Char}

theorem Makes.owed_one (h : Makes (some p) s c) (howed : p.owed = 1) :
    ∃ b : UInt8, s = [b] ∧ p.low ≤ b.toNat ∧ b.toNat ≤ p.high ∧
      c = Char.ofNat (p.bits * 64 + (b.toNat - 0x80)) := by
  cases h with
  | last hlast =>
      obtain ⟨-, hlow, hhigh, hc⟩ := Pending.next_eq_char hlast
      exact ⟨_, rfl, hlow, hhigh, hc⟩
  | more hmore _ =>
      have := (Pending.next_eq_more hmore).1
      omega

theorem Makes.owed_more {n : Nat} (h : Makes (some p) s c) (howed : p.owed = n + 2) :
    ∃ (b : UInt8) (t : Bytes), s = b :: t ∧ p.low ≤ b.toNat ∧ b.toNat ≤ p.high ∧
      Makes (some ⟨n + 1, 0x80, 0xBF, p.bits * 64 + (b.toNat - 0x80), p.count + 1⟩) t c := by
  cases h with
  | last hlast =>
      have := (Pending.next_eq_char hlast).1
      omega
  | more hmore hrest =>
      obtain ⟨-, hlow, hhigh, rfl⟩ := Pending.next_eq_more hmore
      rw [howed, Nat.add_sub_cancel (n + 1) 1] at hrest
      exact ⟨_, _, rfl, hlow, hhigh, hrest⟩

end

theorem byte_eq {b : UInt8} {n : Nat} (h : b.toNat = n) : b = UInt8.ofNat n := by
  rw [← h, UInt8.ofNat_toNat]

/-- **The bytes that are read as a character are those that it is written with.** -/
theorem Makes.eq_encodeChar {s : Bytes} {c : Char} (h : Makes none s c) : s = encodeChar c := by
  cases h with
  | @last _ b _ hlast =>
      rcases start_cases b with ⟨hlow, hstart⟩ | ⟨-, hbeyond⟩
      · obtain rfl := Step.char.inj (hstart.symm.trans hlast)
        exact (encodeChar_ascii hlow (toNat_ofNat (Or.inl (by omega)))).symm
      · rw [show start b = .char c from hlast] at hbeyond
        cases hbeyond
  | @more _ b p s _ hmore hrest =>
      obtain ⟨hp, hp', ⟨howed, hb, hbits, hbits'⟩ | ⟨howed, hb, hbits, hshort, hsurrogate⟩ |
        ⟨howed, hb, hbits, hshort, hpast⟩⟩ := start_eq_more hmore
      · obtain ⟨x, rfl, hx, hx', hc⟩ := hrest.owed_one howed
        have hn : c.toNat = p.bits * 64 + (x.toNat - 0x80) := by
          rw [hc, toNat_ofNat (Or.inl (by omega))]
        rw [encodeChar_two (by omega) (by omega)]
        simp only [List.cons.injEq, and_true]
        exact ⟨byte_eq (by omega), byte_eq (by omega)⟩
      · obtain ⟨x, _, rfl, hx, hx', hrest⟩ := hrest.owed_more (n := 0) howed
        obtain ⟨y, rfl, hy, hy', hc⟩ := hrest.owed_one rfl
        dsimp only at hy hy' hc
        have hn : c.toNat = (p.bits * 64 + (x.toNat - 0x80)) * 64 + (y.toNat - 0x80) := by
          rw [hc, toNat_ofNat (by unfold Nat.isValidChar; omega)]
        rw [encodeChar_three (by omega) (by omega)]
        simp only [List.cons.injEq, and_true]
        exact ⟨byte_eq (by omega), byte_eq (by omega), byte_eq (by omega)⟩
      · obtain ⟨x, _, rfl, hx, hx', hrest⟩ := hrest.owed_more (n := 1) howed
        obtain ⟨y, _, rfl, hy, hy', hrest⟩ := hrest.owed_more (n := 0) rfl
        obtain ⟨z, rfl, hz, hz', hc⟩ := hrest.owed_one rfl
        dsimp only at hy hy' hz hz' hc
        have hn : c.toNat = ((p.bits * 64 + (x.toNat - 0x80)) * 64 + (y.toNat - 0x80)) * 64 +
            (z.toNat - 0x80) := by
          rw [hc, toNat_ofNat (by unfold Nat.isValidChar; omega)]
        rw [encodeChar_four (by omega)]
        simp only [List.cons.injEq, and_true]
        exact ⟨byte_eq (by omega), byte_eq (by omega), byte_eq (by omega), byte_eq (by omega)⟩

/-! ## Reading over a character -/

theorem lossyFrom_cons (done : List Char) (p : Option Pending) (b : UInt8) (s : Bytes) :
    lossyFrom done p (b :: s) = lossyFrom ((absorb p b).1.reverse ++ done) (absorb p b).2 s := by
  cases p <;> rfl

theorem absorb_of_more {p : Option Pending} {b : UInt8} {q : Pending} (h : Step.of p b = .more q) :
    absorb p b = ([], some q) := by
  cases p with
  | none => rw [absorb, absorbFirst, show start b = .more q from h]
  | some p => rw [absorb, show p.next b = .more q from h]

/-- A character that is read is one more character of the text. -/
theorem Makes.lossyFrom_append {p : Option Pending} {u : Bytes} {c : Char} (h : Makes p u c)
    (done : List Char) (s : Bytes) :
    lossyFrom done p (u ++ s) = lossyFrom (c :: done) none s := by
  induction h with
  | @last p b c hlast =>
      have habsorb : absorb p b = ([c], none) := by
        cases p with
        | none => rw [absorb, absorbFirst, show start b = .char c from hlast]
        | some p => rw [absorb, show p.next b = .char c from hlast]
      rw [List.singleton_append, lossyFrom_cons, habsorb]
      rfl
  | @more p b q u c hmore _ ih =>
      rw [List.cons_append, lossyFrom_cons, absorb_of_more hmore]
      exact ih

/-- A character that is read is no fault. -/
theorem Makes.faultFrom_append {p : Option Pending} {u : Bytes} {c : Char} (h : Makes p u c)
    (index : Nat) (s : Bytes) :
    ∃ behind, faultFrom index p (u ++ s) = faultFrom behind none s := by
  induction h with
  | @last p b c hlast =>
      cases p with
      | none => exact ⟨_, by
          rw [List.singleton_append, faultFrom, show start b = .char c from hlast]⟩
      | some p => exact ⟨_, by
          rw [List.singleton_append, faultFrom, show p.next b = .char c from hlast]⟩
  | @more p b q u c hmore _ ih =>
      obtain ⟨behind, hbehind⟩ := ih
      refine ⟨behind, hbehind ▸ ?_⟩
      cases p with
      | none => rw [List.cons_append, faultFrom, show start b = .more q from hmore]
      | some p => rw [List.cons_append, faultFrom, show p.next b = .more q from hmore]

/-- One byte without a fault settles a character or begins one. -/
theorem faultFrom_cons {index : Nat} {p : Option Pending} {b : UInt8} {s : Bytes}
    (h : faultFrom index p (b :: s) = none) :
    (∃ c behind, Step.of p b = .char c ∧ faultFrom behind none s = none) ∨
      ∃ q behind, Step.of p b = .more q ∧ faultFrom behind (some q) s = none := by
  cases p with
  | none =>
      rw [faultFrom] at h
      split at h
      · exact Or.inl ⟨_, _, ‹_›, h⟩
      · exact Or.inr ⟨_, _, ‹_›, h⟩
      · cases h
  | some p =>
      rw [faultFrom] at h
      split at h
      · exact Or.inl ⟨_, _, ‹_›, h⟩
      · exact Or.inr ⟨_, _, ‹_›, h⟩
      · cases h

/-! ## Texts -/

theorem encode_cons (c : Char) (cs : List Char) : encode (c :: cs) = encodeChar c ++ encode cs :=
  List.flatMap_cons

theorem lossyFrom_encode (done cs : List Char) (s : Bytes) :
    lossyFrom done none (encode cs ++ s) = lossyFrom (cs.reverse ++ done) none s := by
  induction cs generalizing done with
  | nil => rfl
  | cons c cs ih =>
      rw [encode_cons, List.append_assoc, (makes_encodeChar c).lossyFrom_append, ih,
        List.reverse_cons, List.append_assoc, List.singleton_append]

/-- **What is written in UTF-8 is read back.** -/
theorem lossy_encode (cs : List Char) : lossy (encode cs) = cs := by
  have h := lossyFrom_encode [] cs []
  rw [List.append_nil, List.append_nil, lossyFrom, List.reverse_reverse] at h
  exact h

theorem ofList_lossy_ofString (text : String) : String.ofList (lossy (ofString text)) = text := by
  rw [ofString, lossy_encode, String.ofList_toList]

/-- Bytes without a fault complete the character under way, if there is one, and write characters
behind it. -/
theorem eq_encode_of_faultFrom {index : Nat} {p : Option Pending} {s : Bytes}
    (h : faultFrom index p s = none) :
    (p = none ∧ s = []) ∨ ∃ u c cs, Makes p u c ∧ s = u ++ encode cs := by
  induction s generalizing index p with
  | nil =>
      cases p with
      | none => exact Or.inl ⟨rfl, rfl⟩
      | some p => cases h
  | cons b s ih =>
      rcases faultFrom_cons h with ⟨c, behind, hlast, hs⟩ | ⟨q, behind, hmore, hs⟩
      · rcases ih hs with ⟨-, rfl⟩ | ⟨u, d, cs, hu, rfl⟩
        · exact Or.inr ⟨[b], c, [], .last hlast, rfl⟩
        · exact Or.inr ⟨[b], c, d :: cs, .last hlast, by
            rw [hu.eq_encodeChar, encode_cons, List.singleton_append]⟩
      · rcases ih hs with ⟨hnone, -⟩ | ⟨u, c, cs, hu, rfl⟩
        · cases hnone
        · exact Or.inr ⟨b :: u, c, cs, .more hmore hu, rfl⟩

theorem faultFrom_encode (index : Nat) (cs : List Char) :
    faultFrom index none (encode cs) = none := by
  induction cs generalizing index with
  | nil => rfl
  | cons c cs ih =>
      obtain ⟨behind, hbehind⟩ := (makes_encodeChar c).faultFrom_append index (encode cs)
      rw [encode_cons, hbehind, ih]

/-- **A list has no fault exactly if it is some characters, written one after another.** -/
theorem fault?_eq_none_iff {s : Bytes} : fault? s = none ↔ ∃ cs, s = encode cs := by
  constructor
  · intro h
    rcases eq_encode_of_faultFrom h with ⟨-, rfl⟩ | ⟨u, c, cs, hu, rfl⟩
    · exact ⟨[], rfl⟩
    · exact ⟨c :: cs, by rw [hu.eq_encodeChar, encode_cons]⟩
  · rintro ⟨cs, rfl⟩
    exact faultFrom_encode 0 cs

/-- ASCII bytes are characters. -/
theorem fault?_ascii {s : Bytes} (h : ∀ b ∈ s, b.toNat < 0x80) : fault? s = none := by
  refine fault?_eq_none_iff.mpr ⟨s.map fun b => Char.ofNat b.toNat, ?_⟩
  induction s with
  | nil => rfl
  | cons b s ih =>
      rw [List.forall_mem_cons] at h
      rw [List.map_cons, encode_cons, ← ih h.2,
        encodeChar_ascii h.1 (toNat_ofNat (Or.inl (by omega))), List.singleton_append]

end RespGateway.Text.Utf8
