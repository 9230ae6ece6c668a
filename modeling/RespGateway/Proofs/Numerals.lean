import RespGateway.Proofs.ReadBack

/-!
# Texts that stand for an integer

`Numeral s n` says that the text `s` stands for the integer `n`: decimal digits, as many
as there are, with a sign in front or without. The reader takes digit by digit and stops
at the first that leaves the range, which finds the same: it gives `n` for exactly the
texts that stand for `n`, where `n` lies in the range (`read_eq_ok_iff`).
-/

namespace RespGateway.Text.Decimal

/-- One or more decimal digits. -/
structure IsDigits (s : Bytes) : Prop where
  ne_nil : s ≠ []
  digit : ∀ b ∈ s, 48 ≤ b ∧ b ≤ 57

/-- A text that stands for an integer. -/
inductive Numeral : Bytes → Int → Prop where
  | unsigned {s : Bytes} : IsDigits s → Numeral s (value s)
  | plus {s : Bytes} : IsDigits s → Numeral (43 :: s) (value s)
  | minus {s : Bytes} : IsDigits s → Numeral (45 :: s) (-(value s : Int))

/-! ## What a numeral looks like -/

theorem isDigits_ofNat (n : Nat) : IsDigits (ofNat n) where
  ne_nil := by
    have := Nat.toDigits_ne_nil (n := n) (b := 10)
    rw [ofNat]
    exact fun h => this (List.map_eq_nil_iff.mp h)
  digit b hb := by
    have h := digit_of_mem_ofNat hb
    exact ⟨UInt8.le_iff_toNat_le.mpr h.1, UInt8.le_iff_toNat_le.mpr h.2⟩

/-- A number is written as a numeral. -/
theorem numeral_ofNat (n : Nat) : Numeral (ofNat n) n := by
  have h := Numeral.unsigned (isDigits_ofNat n)
  rwa [value_ofNat] at h

/-- The bytes of a numeral are signs and digits. -/
theorem Numeral.mem {s : Bytes} {n : Int} (h : Numeral s n) {b : UInt8} (hb : b ∈ s) :
    b = 43 ∨ b = 45 ∨ (48 ≤ b ∧ b ≤ 57) := by
  cases h with
  | unsigned hs => exact Or.inr (Or.inr (hs.digit b hb))
  | plus hs => exact (List.mem_cons.mp hb).imp_right fun hb => Or.inr (hs.digit b hb)
  | minus hs => exact Or.inr ((List.mem_cons.mp hb).imp_right fun hb => hs.digit b hb)

theorem Numeral.ascii {s : Bytes} {n : Int} (h : Numeral s n) {b : UInt8} (hb : b ∈ s) :
    b.toNat < 0x80 := by
  rcases h.mem hb with rfl | rfl | ⟨-, hle⟩
  · decide
  · decide
  · exact Nat.lt_of_le_of_lt (UInt8.le_iff_toNat_le.mp hle) (by decide)

/-- There is no line end in a numeral. -/
theorem Numeral.unbroken {s : Bytes} {n : Int} (h : Numeral s n) : ¬Bytes.crlf <:+: s := by
  intro hin
  have hcr : (13 : UInt8) ∈ s := hin.subset (by simp [Bytes.crlf])
  exact absurd (h.mem hcr) (by decide)

/-! ## Reading -/

/-- More digits make no number less. -/
theorem le_foldl_digits (v : Nat) (s : Bytes) :
    v ≤ s.foldl (fun n b => 10 * n + (b.toNat - 48)) v := by
  induction s generalizing v with
  | nil => exact Nat.le_refl v
  | cons b s ih =>
      rw [List.foldl_cons]
      exact Nat.le_trans (by omega) (ih _)

/-- Digits are read up to the limit. A number past it stays past it, so nothing is lost where the
reader stops early. -/
theorem digits_eq_ok_iff {limit v : Nat} {beyond : Fault} {s : Bytes} {n : Nat} (hv : v ≤ limit) :
    digits limit beyond v s = .ok n ↔
      (∀ b ∈ s, 48 ≤ b ∧ b ≤ 57) ∧ s.foldl (fun n b => 10 * n + (b.toNat - 48)) v = n ∧
        n ≤ limit := by
  induction s generalizing v with
  | nil =>
      rw [digits]
      constructor
      · rintro ⟨⟩
        exact ⟨by simp, rfl, hv⟩
      · rintro ⟨-, rfl, -⟩
        rfl
  | cons b s ih =>
      have hgrown : v * 10 + (b.toNat - 48) = 10 * v + (b.toNat - 48) := by omega
      rw [digits, List.foldl_cons, List.forall_mem_cons]
      by_cases hb : 48 ≤ b ∧ b ≤ 57
      · rw [if_pos hb]
        dsimp only
        rw [hgrown]
        by_cases hpast : limit < 10 * v + (b.toNat - 48)
        · rw [if_pos hpast]
          constructor
          · rintro ⟨⟩
          · rintro ⟨-, hn, hle⟩
            have := le_foldl_digits (10 * v + (b.toNat - 48)) s
            omega
        · rw [if_neg hpast, ih (by omega)]
          simp only [hb, true_and, and_self]
      · rw [if_neg hb]
        constructor
        · rintro ⟨⟩
        · rintro ⟨⟨hb', -⟩, -⟩
          exact absurd hb' hb

theorem someDigits_eq_ok_iff {limit : Nat} {beyond : Fault} {s : Bytes} {n : Nat} :
    someDigits limit beyond s = .ok n ↔ IsDigits s ∧ value s = n ∧ n ≤ limit := by
  rw [someDigits]
  cases s with
  | nil => exact ⟨by rintro ⟨⟩, fun h => absurd rfl h.1.ne_nil⟩
  | cons b s =>
      rw [List.isEmpty_cons, if_neg (by decide), digits_eq_ok_iff (Nat.zero_le _)]
      exact ⟨fun h => ⟨⟨by simp, h.1⟩, h.2⟩, fun h => ⟨h.1.digit, h.2⟩⟩

theorem map_eq_ok_iff {α β : Type} {f : α → β} {r : Except Fault α} {b : β} :
    r.map f = .ok b ↔ ∃ a, r = .ok a ∧ f a = b := by
  cases r with
  | error why => simp [Except.map]
  | ok a => simp [Except.map]

section

variable {low high : Int} {s : Bytes}

theorem read_minus (hlow : low < 0) :
    read low high (45 :: s) =
      (someDigits low.natAbs .tooSmall s).map fun n : Nat => -(n : Int) := by
  rw [read, if_pos ⟨rfl, hlow⟩]
  cases someDigits low.natAbs .tooSmall s <;> rfl

theorem read_plus :
    read low high (43 :: s) = (someDigits high.toNat .tooLarge s).map Int.ofNat := by
  rw [read, if_neg fun h => absurd h.1 (by decide), if_pos rfl]

theorem read_unsigned {b : UInt8} (hminus : b ≠ 45) (hplus : b ≠ 43) :
    read low high (b :: s) = (digits high.toNat .tooLarge 0 (b :: s)).map Int.ofNat := by
  rw [read, if_neg fun h => hminus h.1, if_neg hplus]

/-- **The reader gives `n` for exactly the texts that stand for `n`**, where `n` is in range. -/
theorem read_eq_ok_iff (hlow : low < 0) (hhigh : 0 ≤ high) {n : Int} :
    read low high s = .ok n ↔ Numeral s n ∧ low ≤ n ∧ n ≤ high := by
  constructor
  · intro h
    cases s with
    | nil => cases h
    | cons b s =>
        by_cases hminus : b = 45
        · rw [hminus, read_minus hlow] at h
          obtain ⟨m, hm, rfl⟩ := map_eq_ok_iff.mp h
          obtain ⟨hs, rfl, hle⟩ := someDigits_eq_ok_iff.mp hm
          exact ⟨hminus ▸ .minus hs, by omega, by omega⟩
        by_cases hplus : b = 43
        · rw [hplus, read_plus] at h
          obtain ⟨m, hm, rfl⟩ := map_eq_ok_iff.mp h
          obtain ⟨hs, rfl, hle⟩ := someDigits_eq_ok_iff.mp hm
          exact ⟨hplus ▸ .plus hs, by rw [Int.ofNat_eq_natCast]; omega,
            by rw [Int.ofNat_eq_natCast]; omega⟩
        · rw [read_unsigned hminus hplus] at h
          obtain ⟨m, hm, rfl⟩ := map_eq_ok_iff.mp h
          obtain ⟨hs, rfl, hle⟩ := (digits_eq_ok_iff (Nat.zero_le _)).mp hm
          have hvalue := Numeral.unsigned ⟨List.cons_ne_nil b s, hs⟩
          exact ⟨hvalue, by rw [Int.ofNat_eq_natCast]; omega, by rw [Int.ofNat_eq_natCast]; omega⟩
  · rintro ⟨h, hle, hle'⟩
    cases h with
    | @unsigned s hs =>
        cases s with
        | nil => exact absurd rfl hs.ne_nil
        | cons b s =>
            -- a sign is no digit
            have hb := hs.digit b (List.mem_cons_self ..)
            have hread : digits high.toNat .tooLarge 0 (b :: s) = .ok (value (b :: s)) :=
              (digits_eq_ok_iff (Nat.zero_le _)).mpr ⟨hs.digit, rfl, by omega⟩
            rw [read_unsigned (by rintro rfl; exact absurd hb (by decide))
              (by rintro rfl; exact absurd hb (by decide)), hread]
            rfl
    | @plus s hs =>
        have hread : someDigits high.toNat .tooLarge s = .ok (value s) :=
          someDigits_eq_ok_iff.mpr ⟨hs, rfl, by omega⟩
        rw [read_plus, hread]
        rfl
    | @minus s hs =>
        have hread : someDigits low.natAbs .tooSmall s = .ok (value s) :=
          someDigits_eq_ok_iff.mpr ⟨hs, rfl, by omega⟩
        rw [read_minus hlow, hread]
        rfl

end

theorem readInt64_eq_ok_iff {s : Bytes} {n : Int} :
    readInt64 s = .ok n ↔
      Numeral s n ∧ -9223372036854775808 ≤ n ∧ n ≤ 9223372036854775807 :=
  read_eq_ok_iff (by decide) (by decide)

end RespGateway.Text.Decimal
