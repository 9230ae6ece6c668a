import RespGateway.Proofs.RoundTrip

/-!
# The limits on a request

An array says how many arguments it has and how long each one is, and the decoder takes
it at its word before it reads on: more than `maxArgs` arguments, or one of more than
`maxBulk` bytes, and the request is refused for the first such size (`excess?`). A line
says no sizes. Its words are what they are, however many and however long, and none of
the two limits is asked (`decode_limits`).
-/

namespace RespGateway

/-! ## Integers out of range -/

namespace Text.Decimal

/-- Digits that stand for a number past the limit are refused for that, at whatever digit it is
passed. -/
theorem digits_beyond {limit v : Nat} {beyond : Fault} {s : Bytes}
    (hdigit : ∀ b ∈ s, 48 ≤ b ∧ b ≤ 57) (hv : v ≤ limit)
    (hpast : limit < s.foldl (fun n b => 10 * n + (b.toNat - 48)) v) :
    digits limit beyond v s = .error beyond := by
  induction s generalizing v with
  | nil =>
      rw [List.foldl_nil] at hpast
      omega
  | cons b s ih =>
      rw [List.forall_mem_cons] at hdigit
      rw [List.foldl_cons] at hpast
      rw [digits, if_pos hdigit.1]
      have hgrown : v * 10 + (b.toNat - 48) = 10 * v + (b.toNat - 48) := by omega
      dsimp only
      rw [hgrown]
      by_cases hnow : limit < 10 * v + (b.toNat - 48)
      · rw [if_pos hnow]
      · rw [if_neg hnow]
        exact ih hdigit.2 (by omega) hpast

theorem readInt64_tooLarge {s : Bytes} {n : Int} (h : Numeral s n)
    (hn : 9223372036854775807 < n) : readInt64 s = .error .tooLarge := by
  cases h with
  | unsigned hs =>
      have hdigits : digits 9223372036854775807 .tooLarge 0 s = .error .tooLarge :=
        digits_beyond hs.digit (Nat.zero_le _) (by rw [value] at hn; omega)
      cases s with
      | nil => exact absurd rfl hs.ne_nil
      | cons b s =>
          -- a sign is no digit
          have hb := hs.digit b (List.mem_cons_self ..)
          have hminus : b ≠ 45 := fun h => absurd (h ▸ hb) (by decide)
          have hplus : b ≠ 43 := fun h => absurd (h ▸ hb) (by decide)
          rw [readInt64, read_unsigned hminus hplus]
          change (digits 9223372036854775807 .tooLarge 0 (b :: s)).map Int.ofNat = _
          rw [hdigits]
          rfl
  | @plus s hs =>
      have hdigits : digits 9223372036854775807 .tooLarge 0 s = .error .tooLarge :=
        digits_beyond hs.digit (Nat.zero_le _) (by rw [value] at hn; omega)
      have hsome : someDigits 9223372036854775807 .tooLarge s = .error .tooLarge := by
        rw [someDigits, if_neg (by simpa using hs.ne_nil), hdigits]
      rw [readInt64, read_plus]
      change (someDigits 9223372036854775807 .tooLarge s).map Int.ofNat = _
      rw [hsome]
      rfl
  | minus hs => omega

end Text.Decimal

namespace Request

open Text
open Text.Decimal (Numeral)

/-! ## What an array says of its arguments -/

/-- An argument with its length in front, however long it is. -/
inductive Announced : Bytes → Bytes → Prop where
  | mk {text data : Bytes} : Numeral text data.length →
      Announced data (36 :: text ++ Bytes.crlf ++ data ++ Bytes.crlf)

/-- An array with its arguments, however many there are and however long they are. -/
inductive Announces : List Bytes → Bytes → Prop where
  | mk {text : Bytes} {arguments spans : List Bytes} : Numeral text arguments.length →
      List.Forall₂ Announced arguments spans →
      Announces arguments (42 :: text ++ Bytes.crlf ++ spans.flatten)

/-- The fault of a size above its limit. A size past 64 bits is no integer to the decoder. -/
def oversize (size limit : Nat) : Fault :=
  if size ≤ 9223372036854775807 then .tooLarge size limit else .integer .tooLarge

/-- The first argument that is too long. -/
def overlong? (arguments : List Bytes) : Option Bytes :=
  arguments.find? fun data => maxBulk < data.length

/-- What an array of these arguments is refused for. -/
def excess? (arguments : List Bytes) : Option Fault :=
  if arguments = [] then some (.arrayLength 0)
  else if maxArgs < arguments.length then some (oversize arguments.length maxArgs)
  else (overlong? arguments).map fun data => oversize data.length maxBulk

theorem overlong?_eq_none_iff {arguments : List Bytes} :
    overlong? arguments = none ↔ ∀ data ∈ arguments, data.length ≤ maxBulk := by
  simp [overlong?]

theorem excess?_eq_none_iff {arguments : List Bytes} :
    excess? arguments = none ↔ Announceable arguments := by
  rw [excess?]
  by_cases hne : arguments = []
  · rw [if_pos hne]
    exact ⟨fun h => (by cases h), fun h => absurd hne h.ne_nil⟩
  rw [if_neg hne]
  by_cases hcount : maxArgs < arguments.length
  · rw [if_pos hcount]
    exact ⟨fun h => (by cases h), fun h => absurd h.count (by omega)⟩
  · rw [if_neg hcount, Option.map_eq_none_iff, overlong?_eq_none_iff]
    exact ⟨fun h => ⟨hne, by omega, h⟩, fun h => h.size⟩

/-! ## Reading what an array says -/

/-- A size is read, if it is one of 64 bits. -/
theorem integerLine_size {text : Bytes} {size : Nat} (h : Numeral text size) (rest : Bytes) :
    integerLine (text ++ Bytes.crlf ++ rest) =
      if size ≤ 9223372036854775807 then .done (size : Int) rest
      else .bad (.integer .tooLarge) := by
  by_cases hsize : size ≤ 9223372036854775807
  · rw [if_pos hsize]
    have hrange : InRange size := ⟨by omega, by omega⟩
    exact (integerLine_reads _ _ _).mpr ⟨text ++ Bytes.crlf, ⟨text, h, hrange, rfl⟩, rfl⟩
  · have hline : textLine (text ++ Bytes.crlf ++ rest) = .done text rest :=
      (textLine_reads _ _ _).mpr ⟨text ++ Bytes.crlf,
        ⟨rfl, h.unbroken, Utf8.fault?_ascii fun b hb => h.ascii hb⟩, rfl⟩
    rw [if_neg hsize, integerLine, hline, Progress.andThen,
      Decimal.readInt64_tooLarge h (by omega)]

theorem element_announced {data u : Bytes} (h : Announced data u) (rest : Bytes) :
    element (u ++ rest) =
      if data.length ≤ maxBulk then .done data rest else .bad (oversize data.length maxBulk) := by
  cases h with
  | @mk text data htext =>
      by_cases hle : data.length ≤ maxBulk
      · rw [if_pos hle]
        exact (element_reads _ _ _).mpr ⟨_, .mk htext hle, rfl⟩
      · have hspan : 36 :: text ++ Bytes.crlf ++ data ++ Bytes.crlf ++ rest =
            36 :: (text ++ Bytes.crlf ++ (data ++ Bytes.crlf ++ rest)) := by simp
        rw [if_neg hle, hspan, element, if_pos rfl, bulk, integerLine_size htext, oversize]
        by_cases hsize : data.length ≤ 9223372036854775807
        · rw [if_pos hsize, if_pos hsize, Progress.andThen, if_neg (by omega), if_pos (by omega),
            Int.toNat_natCast]
        · rw [if_neg hsize, if_neg hsize, Progress.andThen]

/-- The arguments are read one after another up to the first that is too long. -/
theorem elements_announced {arguments spans : List Bytes}
    (h : List.Forall₂ Announced arguments spans) (rest : Bytes) :
    elements arguments.length (spans.flatten ++ rest) =
      match overlong? arguments with
      | none => .done arguments rest
      | some data => .bad (oversize data.length maxBulk) := by
  induction h with
  | nil => rfl
  | @cons data u arguments spans hdata _ ih =>
      rw [List.flatten_cons, List.append_assoc, List.length_cons, elements,
        element_announced hdata]
      by_cases hle : data.length ≤ maxBulk
      · have hnext : overlong? (data :: arguments) = overlong? arguments := by
          rw [overlong?, List.find?_cons_of_neg (by simpa using hle), overlong?]
        rw [if_pos hle, Progress.andThen, ih, hnext]
        cases overlong? arguments <;> rfl
      · have hfirst : overlong? (data :: arguments) = some data := by
          rw [overlong?, List.find?_cons_of_pos (by simpa using hle)]
        rw [if_neg hle, Progress.andThen, hfirst]

theorem array_announced {text : Bytes} {arguments spans : List Bytes}
    (htext : Numeral text arguments.length) (hspans : List.Forall₂ Announced arguments spans)
    (rest : Bytes) :
    array (text ++ Bytes.crlf ++ (spans.flatten ++ rest)) =
      match excess? arguments with
      | none => .done arguments rest
      | some fault => .bad fault := by
  rw [array, integerLine_size htext, excess?]
  by_cases hne : arguments = []
  · rw [hne]
    rfl
  have hpos := List.length_pos_of_ne_nil hne
  rw [if_neg hne]
  by_cases hcount : maxArgs < arguments.length
  · rw [if_pos hcount, oversize]
    by_cases hsize : arguments.length ≤ 9223372036854775807
    · rw [if_pos hsize, if_pos hsize, Progress.andThen, if_neg (by omega), if_pos (by omega),
        Int.toNat_natCast]
    · rw [if_neg hsize, if_neg hsize, Progress.andThen]
  · have hsize : arguments.length ≤ 9223372036854775807 := by
      unfold maxArgs at hcount
      omega
    rw [if_neg hcount, if_pos hsize, Progress.andThen, if_neg (by omega), if_neg (by omega),
      Int.toNat_natCast, elements_announced hspans]
    cases overlong? arguments <;> rfl

/-- An array is taken at its word: it is read, or refused for its first size above a limit. -/
theorem Announces.decode_append {arguments : List Bytes} {u : Bytes} (h : Announces arguments u)
    (rest : Bytes) :
    decode (u ++ rest) =
      match excess? arguments with
      | none => .complete arguments u.length
      | some fault => .malformed fault := by
  cases h with
  | @mk text arguments spans htext hspans =>
      have hspan : 42 :: text ++ Bytes.crlf ++ spans.flatten ++ rest =
          42 :: (text ++ Bytes.crlf ++ (spans.flatten ++ rest)) := by simp
      rw [hspan, decode, args, if_pos rfl, array_announced htext hspans]
      cases hexcess : excess? arguments with
      | some fault => rfl
      | none =>
          dsimp only
          congr 1
          simp only [List.length_cons, List.length_append]
          omega

/-! ## The words of a line -/

/-- Words that a line can hold. A first word that begins with `*` would make the line an array. -/
structure Speakable (ws : List (List Char)) : Prop where
  ne_nil : ws ≠ []
  word : ∀ w ∈ ws, w ≠ [] ∧ ∀ c ∈ w, isBlank c = false
  star : ∀ w ∈ ws.head?, w.head? ≠ some '*'

/-- Words with a blank behind each. -/
def spaced (ws : List (List Char)) : List Char := ws.flatMap fun w => w ++ [' ']

/-- A line that holds these words. -/
def line (ws : List (List Char)) : Bytes := Utf8.encode (spaced ws) ++ Bytes.crlf

theorem worded_spaced {ws : List (List Char)}
    (h : ∀ w ∈ ws, w ≠ [] ∧ ∀ c ∈ w, isBlank c = false) : Worded (spaced ws) ws := by
  induction ws with
  | nil => exact .nil
  | cons w ws ih =>
      rw [List.forall_mem_cons] at h
      have hspaced : spaced (w :: ws) = w ++ ' ' :: spaced ws := by
        rw [spaced, List.flatMap_cons, List.append_assoc]
        rfl
      rw [hspaced]
      refine .word h.1.1 h.1.2 ?_ (.blank (by decide) (ih h.2))
      intro c hc
      obtain rfl := Option.some.inj hc
      decide

/-- A line ends only behind its words: a carriage return would be a blank between them. -/
theorem Speakable.unbroken {ws : List (List Char)} (h : Speakable ws) :
    ¬Bytes.crlf <:+: Utf8.encode (spaced ws) := by
  intro hin
  have hcr : (13 : UInt8) ∈ Utf8.encode (spaced ws) := hin.subset (by simp [Bytes.crlf])
  obtain ⟨c, hc, hnat⟩ := (Utf8.mem_encode (by decide) _).mp hcr
  obtain ⟨w, hw, hcw⟩ := List.mem_flatMap.mp hc
  rcases List.mem_append.mp hcw with hletter | hspace
  · have hblank : isBlank c = true := by
      rw [isBlank, hnat]
      decide
    rw [(h.word w hw).2 c hletter] at hblank
    cases hblank
  · obtain rfl := List.mem_singleton.mp hspace
    exact absurd hnat (by decide)

theorem head?_encode {c : Char} (h : c ≠ '*') (cs : List Char) :
    (Utf8.encode (c :: cs)).head? ≠ some 42 := by
  rw [Utf8.encode_cons]
  cases hbytes : Utf8.encodeChar c with
  | nil => exact absurd hbytes (Utf8.encodeChar_ne_nil c)
  | cons b bytes =>
      intro hstar
      obtain rfl : b = 42 := Option.some.inj hstar
      have hmem : (42 : UInt8) ∈ Utf8.encodeChar c := by
        rw [hbytes]
        exact List.mem_cons_self ..
      have hnat := (Utf8.mem_encodeChar (by decide) c).mp hmem
      exact h (Char.toNat_inj.mp hnat)

/-- A line is a request with its words for arguments. -/
theorem Speakable.form {ws : List (List Char)} (h : Speakable ws) :
    Form (ws.map Utf8.encode) (line ws) := by
  cases ws with
  | nil => exact absurd rfl h.ne_nil
  | cons w ws =>
      obtain ⟨hne, hletters⟩ := h.word w (List.mem_cons_self ..)
      cases w with
      | nil => exact absurd rfl hne
      | cons c w =>
          have hc : c ≠ '*' := by
            intro hstar
            exact h.star (c :: w) rfl (congrArg some hstar)
          have hcblank := hletters c (List.mem_cons_self ..)
          have hcin : c ∈ spaced ((c :: w) :: ws) := by simp [spaced]
          exact .inline (head?_encode hc _) h.unbroken ⟨c, hcin, hcblank⟩ (worded_spaced h.word)

/-- A word again and again. -/
theorem speakable_replicate (n : Nat) : Speakable (List.replicate (n + 1) ['a']) where
  ne_nil := List.cons_ne_nil _ _
  word w hw := by
    obtain rfl := List.eq_of_mem_replicate hw
    refine ⟨List.cons_ne_nil _ _, fun c hc => ?_⟩
    obtain rfl := List.mem_singleton.mp hc
    rfl
  star w hw := by
    obtain rfl := Option.some.inj hw
    decide

/-! ## Both forms -/

theorem Form.ne_nil {arguments : List Bytes} {u : Bytes} (h : Form arguments u) :
    arguments ≠ [] := by
  cases h with
  | array _ hne => exact hne
  | inline _ _ hletter hws =>
      have hwords := words_ne_nil_iff.mpr hletter
      rw [words_eq_iff.mpr hws] at hwords
      intro hnil
      exact hwords (List.map_eq_nil_iff.mp hnil)

/-- **The limits hold on one form.** No request is empty. An array is read with the arguments that
it announces, if it keeps to both limits, and refused for the first size that does not. So what is
read from an array keeps to both. A line is read with its words whatever their number and whatever
their lengths. -/
theorem decode_limits (arguments : List Bytes) :
    (∀ s consumed, decode s = .complete arguments consumed →
      arguments ≠ [] ∧ (s.head? = some 42 → Announceable arguments)) ∧
    (∀ u, Announces arguments u → ∀ rest, decode (u ++ rest) =
      match excess? arguments with
      | none => .complete arguments u.length
      | some fault => .malformed fault) ∧
    ∀ ws, Speakable ws → ws.map Utf8.encode = arguments → ∀ rest,
      decode (line ws ++ rest) = .complete arguments (line ws).length := by
  refine ⟨fun s consumed h => ?_, fun u hu rest => hu.decode_append rest, ?_⟩
  · obtain ⟨-, hform⟩ := decode_eq_complete_iff.mp h
    refine ⟨hform.ne_nil, fun hstar => ?_⟩
    cases s with
    | nil => cases hstar
    | cons b s =>
        obtain rfl := Option.some.inj hstar
        exact announceable_of_complete h
  · intro ws hws hwords rest
    rw [← hwords]
    exact hws.form.decode_append rest

/-- A line with one word more than an array may announce is read. -/
theorem decode_limits_line :
    ¬Announceable (List.replicate (maxArgs + 1) [97]) ∧
      decode (line (List.replicate (maxArgs + 1) ['a'])) =
        .complete (List.replicate (maxArgs + 1) [97])
          (line (List.replicate (maxArgs + 1) ['a'])).length := by
  have hencode : Utf8.encode ['a'] = [97] := by decide
  have hread := (decode_limits (List.replicate (maxArgs + 1) [97])).2.2 _
    (speakable_replicate maxArgs) (by rw [List.map_replicate, hencode]) []
  rw [List.append_nil] at hread
  refine ⟨fun h => ?_, hread⟩
  have hcount := h.count
  rw [List.length_replicate] at hcount
  omega

end Request

end RespGateway
