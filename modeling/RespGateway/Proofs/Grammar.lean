import RespGateway.Proofs.Numerals
import RespGateway.Proofs.Splitting
import RespGateway.Proofs.Words

/-!
# The grammar of requests

`Form arguments s` says that the bytes `s` are a request with these arguments, in one of
the two forms and without a word about how it is read. The decoder accepts exactly this
(`decode_complete_iff`): it finds a request where one stands at the front, and nothing
else; and at most one request stands there.

The proof follows the readers. `Reads p L` says that a reader `p` takes off the front
what `L` describes, and it is shown once for each way of building a reader.
-/

namespace RespGateway

/-! ## Lines -/

namespace Bytes

/-- There is no CRLF in front of the one that ends a line. -/
theorem line?_unbroken {s text rest : Bytes} (h : line? s = some (text, rest)) :
    ¬crlf <:+: text := by
  induction s generalizing text with
  | nil => cases h
  | cons b s ih =>
      rw [line?_cons] at h
      split at h
      · obtain ⟨rfl, rfl⟩ := Prod.mk.inj (Option.some.inj h)
        decide
      · rename_i hb
        obtain ⟨⟨text', rest'⟩, hs, heq⟩ := Option.map_eq_some_iff.mp h
        obtain ⟨rfl, rfl⟩ := Prod.mk.inj heq
        intro hin
        rcases List.infix_cons_iff.mp hin with hbegins | hin
        · -- an LF of the text behind `b` is the next byte
          obtain ⟨rfl, behind, rfl⟩ : b = 13 ∧ ∃ behind, text' = 10 :: behind := by
            cases text' with
            | nil => simp [crlf] at hbegins
            | cons a behind => simpa [crlf, eq_comm] using hbegins
          exact hb ⟨rfl, by rw [(line?_eq_some hs).1]; rfl⟩
        · exact ih hs hin

/-- A line ends at its first CRLF. -/
theorem line?_eq_some_iff {s text rest : Bytes} :
    line? s = some (text, rest) ↔ ¬crlf <:+: text ∧ s = text ++ crlf ++ rest := by
  constructor
  · exact fun h => ⟨line?_unbroken h, (line?_eq_some h).1⟩
  · rintro ⟨h, rfl⟩
    rw [List.append_assoc, line?_crlf h]

end Bytes

namespace Request

open Text.Decimal (Numeral)
open Text.Utf8 (encode)

/-! ## The two forms -/

/-- One argument of an array: `$`, a text that stands for its length, CRLF, its bytes, CRLF. -/
inductive Element : Bytes → Bytes → Prop where
  | mk {text data : Bytes} : Numeral text data.length → data.length ≤ maxBulk →
      Element data (36 :: text ++ Bytes.crlf ++ data ++ Bytes.crlf)

/-- A request with its arguments. -/
inductive Form : List Bytes → Bytes → Prop where
  /-- `*`, a text that stands for the number of arguments, CRLF, and the arguments. -/
  | array {text : Bytes} {arguments spans : List Bytes} :
      Numeral text arguments.length → arguments ≠ [] → arguments.length ≤ maxArgs →
      List.Forall₂ Element arguments spans →
      Form arguments (42 :: text ++ Bytes.crlf ++ spans.flatten)
  /-- The words of a line that does not begin with `*`. -/
  | inline {cs : List Char} {ws : List (List Char)} :
      (encode cs).head? ≠ some 42 → ¬Bytes.crlf <:+: encode cs →
      (∃ c ∈ cs, Text.isBlank c = false) → Text.Worded cs ws →
      Form (ws.map encode) (encode cs ++ Bytes.crlf)

/-! ## Readers of a language -/

/-- The reader takes off the front what the language describes, and nothing else. -/
def Reads {α : Type} (p : Bytes → Progress α) (L : α → Bytes → Prop) : Prop :=
  ∀ s part rest, p s = .done part rest ↔ ∃ u, L part u ∧ s = u ++ rest

theorem Reads.congr {α : Type} {p : Bytes → Progress α} {L L' : α → Bytes → Prop}
    (h : Reads p L) (heq : ∀ a u, L a u ↔ L' a u) : Reads p L' := by
  intro s part rest
  simp only [h s part rest, heq]

theorem reads_done {α : Type} (part : α) :
    Reads (Progress.done part) fun a u => a = part ∧ u = [] := by
  intro s a rest
  constructor
  · rintro ⟨⟩
    exact ⟨[], ⟨rfl, rfl⟩, rfl⟩
  · rintro ⟨u, ⟨rfl, rfl⟩, rfl⟩
    rfl

theorem reads_bad {α : Type} (fault : Fault) :
    Reads (fun _ => (Progress.bad fault : Progress α)) fun _ _ => False := by
  intro s a rest
  constructor
  · rintro ⟨⟩
  · rintro ⟨u, ⟨⟩, -⟩

theorem Reads.ite {α : Type} {p q : Bytes → Progress α} {L M : α → Bytes → Prop} {c : Prop}
    [Decidable c] (hp : Reads p L) (hq : Reads q M) :
    Reads (fun s => if c then p s else q s) fun a u => if c then L a u else M a u := by
  by_cases hc : c
  · simpa only [if_pos hc] using hp
  · simpa only [if_neg hc] using hq

/-- A second part after a first. -/
theorem Reads.andThen {α β : Type} {p : Bytes → Progress α} {L : α → Bytes → Prop}
    {next : α → Bytes → Progress β} {M : α → β → Bytes → Prop} (hp : Reads p L)
    (hnext : ∀ a, Reads (next a) (M a)) :
    Reads (fun s => (p s).andThen next)
      fun b w => ∃ a u v, L a u ∧ M a b v ∧ w = u ++ v := by
  intro s b rest
  constructor
  · intro h
    dsimp only at h
    cases hps : p s with
    | more => simp [hps, Progress.andThen] at h
    | bad fault => simp [hps, Progress.andThen] at h
    | done a behind =>
        rw [hps] at h
        obtain ⟨u, hu, rfl⟩ := (hp _ _ _).mp hps
        obtain ⟨v, hv, rfl⟩ := (hnext a _ _ _).mp h
        exact ⟨u ++ v, ⟨a, u, v, hu, hv, rfl⟩, (List.append_assoc ..).symm⟩
  · rintro ⟨_, ⟨a, u, v, hu, hv, rfl⟩, rfl⟩
    have hps := (hp (u ++ v ++ rest) a (v ++ rest)).mpr ⟨u, hu, List.append_assoc ..⟩
    dsimp only
    rw [hps]
    exact (hnext a _ _ _).mpr ⟨v, hv, rfl⟩

/-- A reader that looks at the first byte and then reads on. -/
theorem reads_cons {α : Type} {p : Bytes → Progress α} {L : α → Bytes → Prop}
    (hnil : p [] = .more) (hne : ∀ a, ¬L a [])
    (hcons : ∀ b, Reads (fun s => p (b :: s)) fun a u => L a (b :: u)) : Reads p L := by
  intro s a rest
  cases s with
  | nil =>
      rw [hnil]
      constructor
      · rintro ⟨⟩
      · rintro ⟨u, hu, hs⟩
        obtain ⟨rfl, -⟩ := List.append_eq_nil_iff.mp hs.symm
        exact absurd hu (hne a)
  | cons b s =>
      rw [hcons b s a rest]
      constructor
      · rintro ⟨u, hu, rfl⟩
        exact ⟨b :: u, hu, rfl⟩
      · rintro ⟨u, hu, hs⟩
        cases u with
        | nil => exact absurd hu (hne a)
        | cons b' u =>
            obtain ⟨rfl, rfl⟩ := List.cons.inj hs
            exact ⟨u, hu, rfl⟩

/-- What a reader takes off the front it takes behind its first byte too. -/
theorem Reads.behind {α : Type} {p : Bytes → Progress α} {L : α → Bytes → Prop}
    (h : Reads p L) (hne : ∀ a, ¬L a []) (b : UInt8) :
    Reads (fun s => p (b :: s)) fun a u => L a (b :: u) := by
  intro s a rest
  constructor
  · intro hp
    obtain ⟨u, hu, hs⟩ := (h _ _ _).mp hp
    cases u with
    | nil => exact absurd hu (hne a)
    | cons b' u =>
        obtain ⟨rfl, rfl⟩ := List.cons.inj hs
        exact ⟨u, hu, rfl⟩
  · rintro ⟨u, hu, rfl⟩
    exact (h _ _ _).mpr ⟨b :: u, hu, rfl⟩

/-! ## The readers of a request -/

theorem textLine_reads : Reads textLine fun text u =>
    u = text ++ Bytes.crlf ∧ ¬Bytes.crlf <:+: text ∧ Text.Utf8.fault? text = none := by
  intro s text rest
  constructor
  · intro h
    have hs := (textLine_done h).1
    unfold textLine at h
    cases hline : s.line? with
    | none => simp [hline] at h
    | some p =>
        obtain ⟨line, behind⟩ := p
        simp only [hline] at h
        cases hfault : Text.Utf8.fault? line with
        | some why => simp [hfault] at h
        | none =>
            simp only [hfault] at h
            obtain ⟨rfl, rfl⟩ := Progress.done.inj h
            exact ⟨line ++ Bytes.crlf, ⟨rfl, Bytes.line?_unbroken hline, hfault⟩, hs⟩
  · rintro ⟨_, ⟨rfl, hunbroken, hfault⟩, rfl⟩
    unfold textLine
    rw [Bytes.line?_eq_some_iff.mpr ⟨hunbroken, rfl⟩]
    simp only [hfault]

/-- A number is in range for the reader of integers. -/
def InRange (n : Int) : Prop := -9223372036854775808 ≤ n ∧ n ≤ 9223372036854775807

theorem integerLine_reads : Reads integerLine fun n u =>
    ∃ text, Numeral text n ∧ InRange n ∧ u = text ++ Bytes.crlf := by
  refine (textLine_reads.andThen (M := fun text n v =>
    Text.Decimal.readInt64 text = .ok n ∧ v = []) fun text => ?_).congr fun n w => ?_
  · cases hread : Text.Decimal.readInt64 text with
    | error why => exact (reads_bad _).congr fun n v => by simp
    | ok m => exact (reads_done m).congr fun n v => by simp [eq_comm]
  · constructor
    · rintro ⟨text, _, _, ⟨rfl, -, -⟩, ⟨hread, rfl⟩, rfl⟩
      obtain ⟨hnumeral, hrange⟩ := Text.Decimal.readInt64_eq_ok_iff.mp hread
      exact ⟨text, hnumeral, hrange, List.append_nil _⟩
    · rintro ⟨text, hnumeral, hrange, rfl⟩
      exact ⟨text, text ++ Bytes.crlf, [],
        ⟨rfl, hnumeral.unbroken, Text.Utf8.fault?_ascii fun b hb => hnumeral.ascii hb⟩,
        ⟨Text.Decimal.readInt64_eq_ok_iff.mpr ⟨hnumeral, hrange⟩, rfl⟩, (List.append_nil _).symm⟩

theorem bulkBody_reads (n : Nat) : Reads (bulkBody n) fun data u =>
    data.length = n ∧ u = data ++ Bytes.crlf := by
  intro s data rest
  constructor
  · intro h
    unfold bulkBody at h
    split at h
    · cases h
    · cases h
    · rename_i a b behind hdrop
      split at h
      · rename_i hcrlf
        obtain ⟨rfl, rfl⟩ := hcrlf
        obtain ⟨rfl, rfl⟩ := Progress.done.inj h
        have hlen : n ≤ s.length := by
          have := congrArg List.length hdrop
          simp only [List.length_drop, List.length_cons] at this
          omega
        refine ⟨s.take n ++ Bytes.crlf, ⟨List.length_take_of_le hlen, rfl⟩, ?_⟩
        rw [List.append_assoc]
        exact (List.take_append_drop n s).symm.trans (by rw [hdrop]; rfl)
      · cases h
  · rintro ⟨_, ⟨rfl, rfl⟩, rfl⟩
    unfold bulkBody
    rw [List.append_assoc, List.drop_left, List.take_left]
    rfl

/-- What stands behind the `$` of an argument. -/
def Sized (data u : Bytes) : Prop :=
  ∃ text, Numeral text data.length ∧ data.length ≤ maxBulk ∧
    u = text ++ Bytes.crlf ++ data ++ Bytes.crlf

theorem bulk_reads : Reads bulk Sized := by
  refine (integerLine_reads.andThen fun length =>
    (reads_bad _).ite ((reads_bad _).ite (bulkBody_reads length.toNat))).congr fun data w => ?_
  constructor
  · rintro ⟨length, _, v, ⟨text, hnumeral, -, rfl⟩, hv, rfl⟩
    split at hv
    · cases hv
    · split at hv
      · cases hv
      · obtain ⟨hlen, rfl⟩ := hv
        have hlength : length = data.length := by omega
        exact ⟨text, hlength ▸ hnumeral, by omega, by simp⟩
  · rintro ⟨text, hnumeral, hle, rfl⟩
    have hrange : InRange data.length := by
      unfold maxBulk at hle
      constructor <;> omega
    refine ⟨data.length, text ++ Bytes.crlf, data ++ Bytes.crlf, ⟨text, hnumeral, hrange, rfl⟩,
      ?_, by simp⟩
    rw [if_neg (by omega), if_neg (by omega)]
    exact ⟨rfl, rfl⟩

theorem element_iff {data u : Bytes} : Element data (36 :: u) ↔ Sized data u := by
  constructor
  · rintro ⟨hnumeral, hle⟩
    exact ⟨_, hnumeral, hle, rfl⟩
  · rintro ⟨text, hnumeral, hle, rfl⟩
    exact .mk hnumeral hle

theorem element_reads : Reads element Element := by
  refine reads_cons rfl (fun data h => by cases h) fun b => ?_
  refine (bulk_reads.ite (reads_bad (.unexpectedElement b))).congr fun data u => ?_
  by_cases hb : b = 36
  · rw [if_pos hb, hb, element_iff]
  · rw [if_neg hb, false_iff]
    intro h
    cases h
    exact hb rfl

theorem elements_reads (n : Nat) : Reads (elements n) fun arguments u =>
    arguments.length = n ∧ ∃ spans, List.Forall₂ Element arguments spans ∧ u = spans.flatten := by
  induction n with
  | zero =>
      refine (reads_done []).congr fun arguments u => ?_
      constructor
      · rintro ⟨rfl, rfl⟩
        exact ⟨rfl, [], .nil, rfl⟩
      · rintro ⟨hlen, spans, hspans, rfl⟩
        obtain rfl := List.length_eq_zero_iff.mp hlen
        cases hspans
        exact ⟨rfl, rfl⟩
  | succ n ih =>
      refine (element_reads.andThen fun data =>
        ih.andThen fun arguments => reads_done (data :: arguments)).congr fun arguments w => ?_
      constructor
      · rintro ⟨data, u, _, hdata, ⟨behind, _, _, ⟨hlen, spans, hspans, rfl⟩, ⟨rfl, rfl⟩, rfl⟩, rfl⟩
        exact ⟨by rw [List.length_cons, hlen], u :: spans, .cons hdata hspans, by simp⟩
      · rintro ⟨hlen, spans, hspans, rfl⟩
        cases hspans with
        | nil => cases hlen
        | @cons data u behind spans hdata hspans =>
            exact ⟨data, u, spans.flatten, hdata,
              ⟨behind, spans.flatten, [], ⟨Nat.succ.inj hlen, spans, hspans, rfl⟩, ⟨rfl, rfl⟩,
                (List.append_nil _).symm⟩, rfl⟩

/-- What stands behind the `*` of an array. -/
def Counted (arguments : List Bytes) (u : Bytes) : Prop :=
  ∃ text spans, Numeral text arguments.length ∧ arguments ≠ [] ∧ arguments.length ≤ maxArgs ∧
    List.Forall₂ Element arguments spans ∧ u = text ++ Bytes.crlf ++ spans.flatten

theorem array_reads : Reads array Counted := by
  refine (integerLine_reads.andThen fun count =>
    (reads_bad _).ite ((reads_bad _).ite (elements_reads count.toNat))).congr fun arguments w => ?_
  constructor
  · rintro ⟨count, _, v, ⟨text, hnumeral, -, rfl⟩, hv, rfl⟩
    split at hv
    · cases hv
    · split at hv
      · cases hv
      · obtain ⟨hlen, spans, hspans, rfl⟩ := hv
        have hcount : count = arguments.length := by omega
        exact ⟨text, spans, hcount ▸ hnumeral, List.ne_nil_of_length_pos (by omega), by omega,
          hspans, rfl⟩
  · rintro ⟨text, spans, hnumeral, hne, hle, hspans, rfl⟩
    have hpos := List.length_pos_of_ne_nil hne
    have hrange : InRange arguments.length := by
      unfold maxArgs at hle
      constructor <;> omega
    refine ⟨arguments.length, text ++ Bytes.crlf, spans.flatten, ⟨text, hnumeral, hrange, rfl⟩,
      ?_, rfl⟩
    rw [if_neg (by omega), if_neg (by omega)]
    exact ⟨rfl, spans, hspans, rfl⟩

/-- A line with its words. -/
def Spoken (arguments : List Bytes) (u : Bytes) : Prop :=
  ∃ cs ws, ¬Bytes.crlf <:+: encode cs ∧ (∃ c ∈ cs, Text.isBlank c = false) ∧
    Text.Worded cs ws ∧ arguments = ws.map encode ∧ u = encode cs ++ Bytes.crlf

theorem inline_reads : Reads inline Spoken := by
  refine (textLine_reads.andThen (M := fun text arguments v =>
    Text.words (Text.Utf8.lossy text) ≠ [] ∧
      arguments = (Text.words (Text.Utf8.lossy text)).map encode ∧ v = []) fun text => ?_).congr
    fun arguments w => ?_
  · cases hwords : Text.words (Text.Utf8.lossy text) with
    | nil => exact (reads_bad _).congr fun arguments v => by simp
    | cons w ws => exact (reads_done _).congr fun arguments v => by simp
  · constructor
    · rintro ⟨text, _, _, ⟨rfl, hunbroken, hfault⟩, ⟨hne, rfl, rfl⟩, rfl⟩
      obtain ⟨cs, rfl⟩ := Text.Utf8.fault?_eq_none_iff.mp hfault
      rw [Text.Utf8.lossy_encode] at hne ⊢
      exact ⟨cs, Text.words cs, hunbroken, Text.words_ne_nil_iff.mp hne,
        Text.words_eq_iff.mp rfl, rfl, List.append_nil _⟩
    · rintro ⟨cs, ws, hunbroken, hletter, hws, rfl, rfl⟩
      obtain rfl := Text.words_eq_iff.mpr hws
      refine ⟨encode cs, encode cs ++ Bytes.crlf, [],
        ⟨rfl, hunbroken, Text.Utf8.fault?_eq_none_iff.mpr ⟨cs, rfl⟩⟩, ?_,
        (List.append_nil _).symm⟩
      rw [Text.Utf8.lossy_encode]
      exact ⟨Text.words_ne_nil_iff.mpr hletter, rfl, rfl⟩

/-! ## Requests -/

/-- An array is known by its first byte. -/
theorem form_star_iff {arguments : List Bytes} {u : Bytes} :
    Form arguments (42 :: u) ↔ Counted arguments u := by
  constructor
  · intro h
    generalize hs : 42 :: u = s at h
    cases h with
    | array hnumeral hne hle hspans =>
        obtain ⟨-, rfl⟩ := List.cons.inj hs
        exact ⟨_, _, hnumeral, hne, hle, hspans, rfl⟩
    | @inline cs ws hstar hunbroken hletter hws =>
        -- a line that begins with `*` is not an inline request
        cases hline : encode cs with
        | nil => rw [hline] at hs; simp [Bytes.crlf] at hs
        | cons b line =>
            rw [hline] at hs hstar
            obtain ⟨rfl, -⟩ := List.cons.inj hs
            exact absurd rfl hstar
  · rintro ⟨text, spans, hnumeral, hne, hle, hspans, rfl⟩
    exact .array hnumeral hne hle hspans

theorem form_line_iff {b : UInt8} (hb : b ≠ 42) {arguments : List Bytes} {u : Bytes} :
    Form arguments (b :: u) ↔ Spoken arguments (b :: u) := by
  constructor
  · intro h
    generalize hs : b :: u = s at h
    cases h with
    | array => exact absurd (List.cons.inj hs).1 hb
    | inline _ hunbroken hletter hws => exact ⟨_, _, hunbroken, hletter, hws, rfl, rfl⟩
  · rintro ⟨cs, ws, hunbroken, hletter, hws, rfl, hs⟩
    rw [hs]
    refine .inline ?_ hunbroken hletter hws
    intro hstar
    cases hline : encode cs with
    | nil => simp [hline] at hstar
    | cons b' line =>
        rw [hline] at hs hstar
        exact hb ((List.cons.inj hs).1.trans (Option.some.inj hstar))

/-- **What is read off the front is a request**, whatever stands behind. -/
theorem args_reads : Reads args Form := by
  refine reads_cons rfl (fun arguments h => ?_) fun b => ?_
  · generalize hs : ([] : Bytes) = s at h
    cases h <;> simp [Bytes.crlf] at hs
  · by_cases hb : b = 42
    · subst hb
      exact array_reads.congr fun arguments u => form_star_iff.symm
    · simp only [args, if_neg hb]
      refine (inline_reads.behind (fun arguments h => ?_) b).congr fun arguments u =>
        (form_line_iff hb).symm
      obtain ⟨cs, ws, -, -, -, -, hs⟩ := h
      simp [Bytes.crlf] at hs

/-- A request is complete where the bytes that it takes are one of the two forms. -/
theorem decode_eq_complete_iff {s : Bytes} {arguments : List Bytes} {consumed : Nat} :
    decode s = .complete arguments consumed ↔
      consumed ≤ s.length ∧ Form arguments (s.take consumed) := by
  constructor
  · intro h
    obtain ⟨rest, hargs, rfl⟩ := decode_eq_complete h
    obtain ⟨u, hu, rfl⟩ := (args_reads _ _ _).mp hargs
    rw [List.length_append, Nat.add_sub_cancel, List.take_left]
    exact ⟨Nat.le_add_right .., hu⟩
  · rintro ⟨hle, hform⟩
    have hargs : args s = .done arguments (s.drop consumed) :=
      (args_reads _ _ _).mpr ⟨_, hform, (List.take_append_drop consumed s).symm⟩
    rw [decode, hargs]
    dsimp only
    rw [List.length_drop, Nat.sub_sub_self hle]

/-- A request is read, whatever stands behind it. -/
theorem Form.decode_append {arguments : List Bytes} {u : Bytes} (h : Form arguments u)
    (rest : Bytes) : decode (u ++ rest) = .complete arguments u.length :=
  decode_eq_complete_iff.mpr ⟨by simp, by rwa [List.take_left]⟩

/-- **The decoder accepts exactly its grammar.** Bytes hold a complete request if and only if those
that it takes are one of the two forms, and there is at most one such request at the front. -/
theorem decode_complete_iff (s : Bytes) :
    (∀ arguments consumed, decode s = .complete arguments consumed ↔
      consumed ≤ s.length ∧ Form arguments (s.take consumed)) ∧
    ∀ arguments consumed arguments' consumed',
      (consumed ≤ s.length ∧ Form arguments (s.take consumed)) →
      (consumed' ≤ s.length ∧ Form arguments' (s.take consumed')) →
      arguments = arguments' ∧ consumed = consumed' := by
  refine ⟨fun arguments consumed => decode_eq_complete_iff,
    fun arguments consumed arguments' consumed' h h' => ?_⟩
  -- both are what is decoded
  have hdecode := decode_eq_complete_iff.mpr h
  rw [decode_eq_complete_iff.mpr h'] at hdecode
  obtain ⟨harguments, hconsumed⟩ := Verdict.complete.inj hdecode
  exact ⟨harguments.symm, hconsumed.symm⟩

/-- A count with a plus sign, an argument of length minus zero, and another request behind. -/
theorem decode_complete_iff_signs :
    decode [42, 43, 49, 13, 10, 36, 45, 48, 13, 10, 13, 10, 42, 49] = .complete [[]] 12 := by
  have hdigits : ∀ b : UInt8, 48 ≤ b ∧ b ≤ 57 → Text.Decimal.IsDigits [b] := fun b hb =>
    ⟨List.cons_ne_nil b [], by simpa using hb⟩
  have helement : Element [] [36, 45, 48, 13, 10, 13, 10] :=
    @Element.mk [45, 48] [] (.minus (hdigits 48 (by decide))) (by decide)
  have hform : Form [[]] [42, 43, 49, 13, 10, 36, 45, 48, 13, 10, 13, 10] :=
    @Form.array [43, 49] [[]] _ (.plus (hdigits 49 (by decide))) (by decide) (by decide)
      (.cons helement .nil)
  exact ((decode_complete_iff _).1 _ _).mpr ⟨by decide, hform⟩

end Request

end RespGateway
