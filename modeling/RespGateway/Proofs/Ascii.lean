import RespGateway.Text.Utf8

/-!
# ASCII in UTF-8

An ASCII character is one byte in UTF-8, and no other character has that byte among its
own. So neither writing a text nor reading bytes as a text, not even bytes that are no
UTF-8, makes an ASCII character or loses one.
-/

namespace RespGateway.Text.Utf8

/-! ## Writing -/

theorem toNat_lt (c : Char) : c.toNat < 0x110000 := by
  have hvalid : c.toNat < 0xD800 ∨ 0xDFFF < c.toNat ∧ c.toNat < 0x110000 := c.valid
  omega

theorem mem_encodeChar {b : UInt8} (hb : b.toNat < 0x80) (c : Char) :
    b ∈ encodeChar c ↔ c.toNat = b.toNat := by
  have hc := toNat_lt c
  -- the bytes of a longer character all have their highest bit
  have hne : ∀ m : Nat, 0x80 ≤ m → m < 256 → b ≠ UInt8.ofNat m := by
    intro m hlow hhigh heq
    rw [heq, UInt8.toNat_ofNat'] at hb
    omega
  unfold encodeChar
  dsimp only
  split
  · rename_i hone
    rw [List.mem_singleton, ← UInt8.toNat_inj, UInt8.toNat_ofNat']
    omega
  · rename_i hone
    have hno : c.toNat ≠ b.toNat := by omega
    split
    · simp only [List.mem_cons, List.not_mem_nil, or_false, hno, iff_false, not_or]
      exact ⟨hne _ (by omega) (by omega), hne _ (by omega) (by omega)⟩
    · split
      · simp only [List.mem_cons, List.not_mem_nil, or_false, hno, iff_false, not_or]
        exact ⟨hne _ (by omega) (by omega), hne _ (by omega) (by omega),
          hne _ (by omega) (by omega)⟩
      · simp only [List.mem_cons, List.not_mem_nil, or_false, hno, iff_false, not_or]
        exact ⟨hne _ (by omega) (by omega), hne _ (by omega) (by omega),
          hne _ (by omega) (by omega), hne _ (by omega) (by omega)⟩

theorem mem_encode {b : UInt8} (hb : b.toNat < 0x80) (cs : List Char) :
    b ∈ encode cs ↔ ∃ c ∈ cs, c.toNat = b.toNat := by
  simp only [encode, List.mem_flatMap, mem_encodeChar hb]

theorem ofString_append (s t : String) : ofString (s ++ t) = ofString s ++ ofString t := by
  rw [ofString, String.toList_append, encode, List.flatMap_append]
  rfl

/-! ## Reading -/

/-- The character under way is no ASCII character, whatever follows. -/
structure Pending.Wide (p : Pending) : Prop where
  low : 0x80 ≤ p.low
  bits : (if p.owed ≤ 1 then 0x80 else 2) ≤ p.bits * 64 + (p.low - 0x80)

theorem wide_last {low high bits count : Nat} (hlow : 0x80 ≤ low)
    (hbits : 0x80 ≤ bits * 64 + (low - 0x80)) : (Pending.mk 1 low high bits count).Wide :=
  ⟨hlow, hbits⟩

theorem wide_more {owed low high bits count : Nat} (howed : 1 < owed) (hlow : 0x80 ≤ low)
    (hbits : 2 ≤ bits * 64 + (low - 0x80)) : (Pending.mk owed low high bits count).Wide :=
  ⟨hlow, by rwa [if_neg (Nat.not_le.mpr howed)]⟩

/-- Nothing has become an ASCII character, and nothing will. -/
inductive Step.Beyond : Step → Prop where
  | refused : Beyond .refused
  | more {p : Pending} : p.Wide → Beyond (.more p)

theorem Step.Beyond.ite {P : Prop} [Decidable P] {st st' : Step} (h : P → st.Beyond)
    (h' : ¬P → st'.Beyond) : (if P then st else st').Beyond := by
  by_cases hP : P
  · rw [if_pos hP]
    exact h hP
  · rw [if_neg hP]
    exact h' hP

theorem start_cases (b : UInt8) :
    (b.toNat < 0x80 ∧ start b = .char (Char.ofNat b.toNat)) ∨
      (0x80 ≤ b.toNat ∧ (start b).Beyond) := by
  by_cases hone : b.toNat < 0x80
  · exact Or.inl ⟨hone, if_pos hone⟩
  · refine Or.inr ⟨by omega, ?_⟩
    rw [start, if_neg hone]
    -- characters of two, of three and of four bytes; the bounds on the second byte of some leave
    -- out what fewer bytes could write
    refine .ite (fun _ => .refused) fun htwo => .ite (fun _ => ?_) fun hthree => ?_
    · exact .more (wide_last (by decide) (by omega))
    refine .ite (fun _ => ?_) fun _ => .ite (fun _ => ?_) fun _ => .ite (fun _ => ?_)
      fun hfour => ?_
    · exact .more (wide_more (by decide) (by decide) (by decide))
    · exact .more (wide_more (by decide) (by decide) (by decide))
    · exact .more (wide_more (by decide) (by decide) (by omega))
    refine .ite (fun _ => ?_) fun _ => .ite (fun _ => ?_) fun _ => .ite (fun _ => ?_) fun _ => ?_
    · exact .more (wide_more (by decide) (by decide) (by decide))
    · exact .more (wide_more (by decide) (by decide) (by omega))
    · exact .more (wide_more (by decide) (by decide) (by decide))
    · exact .refused

theorem Pending.Wide.next_cases {p : Pending} (h : p.Wide) (b : UInt8) :
    p.next b = .refused ∨ (0x80 ≤ b.toNat ∧
      ((∃ n, 0x80 ≤ n ∧ p.next b = .char (Char.ofNat n)) ∨ ∃ q, p.next b = .more q ∧ q.Wide)) := by
  obtain ⟨hlow, hbits⟩ := h
  unfold Pending.next
  dsimp only
  split
  · exact Or.inl rfl
  · rename_i hin
    right
    refine ⟨by omega, ?_⟩
    split
    · rename_i howed
      rw [if_pos howed] at hbits
      exact Or.inl ⟨_, by omega, rfl⟩
    · rename_i howed
      rw [if_neg howed] at hbits
      refine Or.inr ⟨_, rfl, Nat.le_refl _, ?_⟩
      dsimp only
      split <;> omega

theorem toNat_ofNat {n : Nat} (h : n.isValidChar) : (Char.ofNat n).toNat = n := by
  rw [Char.ofNat, dif_pos h]
  rfl

theorem ofNat_ascii {c : Char} {n : Nat} (hn : n < 0x80) : c = Char.ofNat n ↔ n = c.toNat := by
  have hvalid : n.isValidChar := Or.inl (by omega)
  constructor
  · rintro rfl
    exact (toNat_ofNat hvalid).symm
  · rintro rfl
    exact (Char.ofNat_toNat c).symm

theorem ofNat_wide {c : Char} (h0 : 0 < c.toNat) (h : c.toNat < 0x80) {n : Nat} (hn : 0x80 ≤ n) :
    c ≠ Char.ofNat n := by
  intro heq
  by_cases hvalid : n.isValidChar
  · rw [heq, toNat_ofNat hvalid] at h
    omega
  · rw [heq, Char.ofNat, dif_neg hvalid] at h0
    exact absurd h0 (by decide)

section

variable {c : Char} (h0 : 0 < c.toNat) (hc : c.toNat < 0x80)

include h0 hc

theorem mem_absorbFirst (b : UInt8) :
    (c ∈ (absorbFirst b).1 ↔ b.toNat = c.toNat) ∧ ∀ p ∈ (absorbFirst b).2, p.Wide := by
  have hreplacement : c ≠ replacement := ofNat_wide h0 hc (by decide)
  unfold absorbFirst
  rcases start_cases b with ⟨hlow, hstart⟩ | ⟨hhigh, hbeyond⟩
  · rw [hstart]
    exact ⟨List.mem_singleton.trans (ofNat_ascii hlow), by simp⟩
  · have hno : b.toNat ≠ c.toNat := by omega
    cases hstart : start b with
    | char c' => rw [hstart] at hbeyond; cases hbeyond
    | refused => exact ⟨by simp [hreplacement, hno], by simp⟩
    | more p =>
        rw [hstart] at hbeyond
        cases hbeyond with
        | more hp =>
            refine ⟨by simp [hno], ?_⟩
            rintro p' ⟨⟩
            exact hp

theorem mem_absorb {p : Option Pending} (hp : ∀ q ∈ p, q.Wide) (b : UInt8) :
    (c ∈ (absorb p b).1 ↔ b.toNat = c.toNat) ∧ ∀ q ∈ (absorb p b).2, q.Wide := by
  have hfirst := mem_absorbFirst h0 hc b
  cases p with
  | none => exact hfirst
  | some p =>
      unfold absorb
      dsimp only
      -- a byte that does not fit is read once more, as a first one
      rcases (hp p rfl).next_cases b with hnext | ⟨hhigh, ⟨n, hn, hnext⟩ | ⟨q, hnext, hq⟩⟩
      · rw [hnext]
        have hreplacement : c ≠ replacement := ofNat_wide h0 hc (by decide)
        refine ⟨?_, hfirst.2⟩
        rw [List.mem_cons, or_iff_right hreplacement]
        exact hfirst.1
      · rw [hnext]
        have hno : b.toNat ≠ c.toNat := by omega
        exact ⟨by simp [ofNat_wide h0 hc hn, hno], by simp⟩
      · rw [hnext]
        have hno : b.toNat ≠ c.toNat := by omega
        refine ⟨by simp [hno], ?_⟩
        rintro q' ⟨⟩
        exact hq

theorem mem_lossyFrom (done : List Char) {p : Option Pending} (hp : ∀ q ∈ p, q.Wide) (s : Bytes) :
    c ∈ lossyFrom done p s ↔ c ∈ done ∨ ∃ b ∈ s, b.toNat = c.toNat := by
  induction s generalizing done p with
  | nil =>
      have hreplacement : c ≠ replacement := ofNat_wide h0 hc (by decide)
      cases p with
      | none => simp [lossyFrom]
      | some p => simp [lossyFrom, hreplacement]
  | cons b s ih =>
      obtain ⟨hmem, hwide⟩ := mem_absorb h0 hc hp b
      have hstep : lossyFrom done p (b :: s) =
          lossyFrom ((absorb p b).1.reverse ++ done) (absorb p b).2 s := by
        cases p <;> rfl
      rw [hstep, ih _ hwide, List.mem_append, List.mem_reverse, hmem, or_comm (a := b.toNat = _)]
      simp [or_assoc]

end

/-- **Reading as a text and writing it keeps the ASCII bytes.** -/
theorem mem_encode_lossy {b : UInt8} (h0 : 0 < b.toNat) (hb : b.toNat < 0x80) (s : Bytes) :
    b ∈ encode (lossy s) ↔ b ∈ s := by
  have hto : (Char.ofNat b.toNat).toNat = b.toNat := toNat_ofNat (Or.inl (by omega))
  rw [mem_encode hb]
  constructor
  · rintro ⟨c, hc, heq⟩
    rw [← heq] at h0 hb
    rw [lossy, mem_lossyFrom h0 hb [] (by simp)] at hc
    obtain ⟨b', hb', heq'⟩ := hc.resolve_left (by simp)
    rwa [← UInt8.toNat_inj.mp (heq'.trans heq)]
  · intro hmem
    refine ⟨Char.ofNat b.toNat, ?_, hto⟩
    rw [lossy, mem_lossyFrom (by omega) (by omega) [] (by simp)]
    exact Or.inr ⟨b, hmem, hto.symm⟩

end RespGateway.Text.Utf8
