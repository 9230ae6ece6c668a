import Mathlib.Data.List.Infix
import RespGateway.Proofs.Characters
import RespGateway.Text.Decimal

/-!
# Texts and numbers read back

An ASCII byte in a text that is written in UTF-8 is a character of its own
(`encode_eq_append`), so the text can be cut there. The digits of a number have its value
(`value_ofNat`, `intValue_ofInt`).
-/

namespace RespGateway.Text

namespace Utf8

/-! ## Texts -/

/-- An ASCII byte stands between two characters. -/
theorem encode_eq_append {b : UInt8} (hb : b.toNat < 0x80) {cs : List Char} {s t : Bytes}
    (h : encode cs = s ++ b :: t) :
    ∃ before c behind, cs = before ++ c :: behind ∧ c.toNat = b.toNat ∧ encode before = s ∧
      encode behind = t := by
  induction cs generalizing s with
  | nil => simp [encode] at h
  | cons c cs ih =>
      rw [encode_cons] at h
      rcases List.append_eq_append_iff.mp h with ⟨s', rfl, hrest⟩ | ⟨t', hfirst, hrest⟩
      · obtain ⟨before, d, behind, rfl, hd, hbefore, hbehind⟩ := ih hrest
        exact ⟨c :: before, d, behind, rfl, hd, by rw [encode_cons, hbefore], hbehind⟩
      · cases t' with
        | nil =>
            -- the byte begins the next character
            rw [List.append_nil] at hfirst
            obtain ⟨before, d, behind, rfl, hd, hbefore, hbehind⟩ := ih (s := []) hrest.symm
            exact ⟨c :: before, d, behind, rfl, hd, by rw [encode_cons, hbefore, hfirst,
              List.append_nil], hbehind⟩
        | cons b' t' =>
            obtain ⟨rfl, rfl⟩ := List.cons.inj hrest
            have hc : c.toNat = b.toNat := (mem_encodeChar hb c).mp (hfirst ▸ by simp)
            rw [encodeChar_ascii hb hc] at hfirst
            -- an ASCII character is its one byte
            obtain ⟨rfl, rfl⟩ : s = [] ∧ t' = [] := by
              cases s with
              | nil => simpa using hfirst
              | cons b' s => simp at hfirst
            exact ⟨[], c, cs, rfl, hc, rfl, rfl⟩

/-- A CRLF in what is written is one in the text. -/
theorem crlf_infix_encode {cs : List Char} (h : Bytes.crlf <:+: encode cs) :
    ['\r', '\n'] <:+: cs := by
  obtain ⟨s, t, h⟩ := h
  rw [List.append_assoc] at h
  obtain ⟨before, c, behind, rfl, hc, -, hbehind⟩ :=
    encode_eq_append (b := 13) (by decide) (s := s) (t := 10 :: t) h.symm
  obtain ⟨none, d, behind', rfl, hd, hnone, -⟩ :=
    encode_eq_append (b := 10) (by decide) (s := []) (t := t) hbehind
  obtain rfl : none = [] := by
    cases none with
    | nil => rfl
    | cons e es => simp [encode_cons, encodeChar_ne_nil] at hnone
  obtain rfl : c = '\r' := Char.toNat_inj.mp hc
  obtain rfl : d = '\n' := Char.toNat_inj.mp hd
  exact ⟨before, behind', by simp⟩

end Utf8

namespace Decimal

/-! ## Decimals -/

/-- What decimal digits stand for. -/
def value (s : Bytes) : Nat := s.foldl (fun n b => 10 * n + (b.toNat - 48)) 0

/-- What decimal digits, with a minus sign or without, stand for. -/
def intValue : Bytes → Int
  | 45 :: s => -(value s : Int)
  | s => value s

/-- A number is written in digits. -/
theorem digit_of_mem_ofNat {n : Nat} {b : UInt8} (hb : b ∈ ofNat n) :
    48 ≤ b.toNat ∧ b.toNat ≤ 57 := by
  obtain ⟨c, hc, rfl⟩ := List.mem_map.mp hb
  have hdigit := Nat.isDigit_of_mem_toDigits (by decide) (by decide) hc
  simp only [Char.isDigit, Bool.and_eq_true, decide_eq_true_eq] at hdigit
  have hlow : 48 ≤ c.toNat := hdigit.1
  have hhigh : c.toNat ≤ 57 := hdigit.2
  rw [UInt8.toNat_ofNat', Nat.mod_eq_of_lt (by omega)]
  exact ⟨hlow, hhigh⟩

theorem value_ofNat (n : Nat) : value (ofNat n) = n := by
  have hdigits := Nat.ofDigitChars_ten_toDigits (n := n)
  rw [Nat.ofDigitChars_eq_foldl] at hdigits
  rw [value, ofNat, List.foldl_map]
  refine Eq.trans ?_ hdigits
  refine List.foldl_ext _ _ _ fun m c hc => ?_
  have hdigit := Nat.isDigit_of_mem_toDigits (by decide) (by decide) hc
  simp only [Char.isDigit, Bool.and_eq_true, decide_eq_true_eq] at hdigit
  have hhigh : c.toNat ≤ 57 := hdigit.2
  rw [UInt8.toNat_ofNat', Nat.mod_eq_of_lt (by omega)]
  rfl

theorem intValue_ofNat (n : Nat) : intValue (ofNat n) = n := by
  unfold intValue
  split
  · rename_i s hs
    have := (digit_of_mem_ofNat (n := n) (b := 45) (by rw [hs]; exact List.mem_cons_self ..)).1
    exact absurd this (by decide)
  · rw [value_ofNat]

/-- **An integer that is written is read back.** -/
theorem intValue_ofInt (n : Int) : intValue (ofInt n) = n := by
  cases n with
  | ofNat n => exact intValue_ofNat n
  | negSucc n =>
      change -(value (ofNat (n + 1)) : Int) = _
      rw [value_ofNat]
      rfl

end Decimal

end RespGateway.Text
