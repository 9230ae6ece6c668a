import RespGateway.Request.Stream

/-!
# What a verdict rests on

A reader looks at bytes of which more may come. This module shows that it never has
to take back what it said: a part that it has read is settled by the bytes the part
takes, whatever stands behind them, and a fault is settled by the bytes seen so far.

The property is proved once for each way of building a reader, from the search for a
line end upwards, and carried to `Request.decode` at the end. It is what makes it
possible to read a stream in pieces (`RespGateway.Proofs.Cutting`). What is settled by the
bytes it takes is not settled by fewer, so a request is decided with its last byte.
-/

namespace RespGateway

namespace Bytes

/-! ## Lines -/

theorem crlfFrom_succ (n : Nat) (s : Bytes) : crlfFrom (n + 1) s = (crlfFrom n s).map (· + 1) := by
  induction s generalizing n with
  | nil => rfl
  | cons b s ih =>
      rw [crlfFrom, crlfFrom]
      split
      · rfl
      · exact ih (n + 1)

theorem line?_cons (b : UInt8) (s : Bytes) :
    line? (b :: s) =
      if b = 13 ∧ s.head? = some 10 then some ([], s.tail)
      else (line? s).map fun p => (b :: p.1, p.2) := by
  unfold line?
  rw [crlfFrom]
  split
  · simp
  · rw [crlfFrom_succ, Option.map_map, Option.map_map]
    rfl

/-- A line ends at the first CRLF, whatever stands behind it. -/
theorem line?_eq_some {s text rest : Bytes} (h : line? s = some (text, rest)) :
    s = text ++ crlf ++ rest ∧ ∀ t, line? (text ++ crlf ++ t) = some (text, t) := by
  induction s generalizing text with
  | nil => cases h
  | cons b s ih =>
      rw [line?_cons] at h
      split at h
      · rename_i hb
        obtain ⟨rfl, hs⟩ := hb
        obtain ⟨rfl, rfl⟩ := Prod.mk.inj (Option.some.inj h)
        refine ⟨?_, fun t => by simp [line?_cons, crlf]⟩
        cases s with
        | nil => simp at hs
        | cons a s => simpa [crlf] using hs
      · rename_i hb
        obtain ⟨⟨text', rest'⟩, hs, heq⟩ := Option.map_eq_some_iff.mp h
        obtain ⟨rfl, rfl⟩ := Prod.mk.inj heq
        obtain ⟨hsplit, hline⟩ := ih hs
        refine ⟨by rw [hsplit]; rfl, fun t => ?_⟩
        -- the byte behind `b` is the same for every `t`: at least CRLF follows
        have hhead : (text' ++ crlf ++ t).head? = s.head? := by
          rw [hsplit]
          cases text' <;> rfl
        rw [show b :: text' ++ crlf ++ t = b :: (text' ++ crlf ++ t) from rfl, line?_cons, hhead,
          if_neg hb, hline t]
        rfl

theorem line?_append {s text rest : Bytes} (h : line? s = some (text, rest)) (t : Bytes) :
    line? (s ++ t) = some (text, rest ++ t) := by
  obtain ⟨hsplit, hline⟩ := line?_eq_some h
  rw [hsplit, List.append_assoc (text ++ crlf)]
  exact hline (rest ++ t)

end Bytes

namespace Request

/-! ## Readers that settle what they say -/

/-- A reader never takes back what it said. -/
structure Settles {α : Type} (least : Nat) (p : Bytes → Progress α) : Prop where
  /-- A part is settled by the bytes it takes, of which there are at least `least`. -/
  done : ∀ {s : Bytes} {part : α} {rest : Bytes}, p s = .done part rest →
    ∃ used, s = used ++ rest ∧ least ≤ used.length ∧ ∀ t, p (used ++ t) = .done part t
  /-- A fault is settled by the bytes seen. -/
  bad : ∀ {s : Bytes} {fault : Fault}, p s = .bad fault → ∀ t, p (s ++ t) = .bad fault

theorem Settles.mono {α : Type} {least fewer : Nat} {p : Bytes → Progress α}
    (h : Settles least p) (hle : fewer ≤ least) : Settles fewer p where
  done hp := by
    obtain ⟨used, hs, hlen, hused⟩ := h.done hp
    exact ⟨used, hs, Nat.le_trans hle hlen, hused⟩
  bad := h.bad

theorem settles_done {α : Type} (part : α) : Settles 0 (Progress.done part) where
  done h := by
    obtain ⟨rfl, rfl⟩ := Progress.done.inj h
    exact ⟨[], rfl, Nat.le_refl _, fun _ => rfl⟩
  bad h := by cases h

theorem settles_bad {α : Type} (least : Nat) (fault : Fault) :
    Settles least (fun _ => (Progress.bad fault : Progress α)) where
  done h := by cases h
  bad h _ := h

theorem Settles.ite {α : Type} {least : Nat} {p q : Bytes → Progress α} {c : Prop} [Decidable c]
    (hp : Settles least p) (hq : Settles least q) :
    Settles least (fun s => if c then p s else q s) := by
  by_cases hc : c
  · simpa only [if_pos hc] using hp
  · simpa only [if_neg hc] using hq

/-- A second part after a first takes the bytes of both. -/
theorem Settles.andThen {α β : Type} {m n : Nat} {p : Bytes → Progress α}
    {next : α → Bytes → Progress β} (hp : Settles m p) (hnext : ∀ a, Settles n (next a)) :
    Settles (m + n) (fun s => (p s).andThen next) where
  done {s part rest} h := by
    cases hps : p s with
    | more => simp [hps, Progress.andThen] at h
    | bad fault => simp [hps, Progress.andThen] at h
    | done a rest₁ =>
        -- the first part takes `used`, the second `used₂` of what is left
        rw [hps] at h
        obtain ⟨used, rfl, hlen, hused⟩ := hp.done hps
        obtain ⟨used₂, rfl, hlen₂, hused₂⟩ := (hnext a).done h
        refine ⟨used ++ used₂, by simp, ?_, fun t => ?_⟩
        · rw [List.length_append]
          omega
        · rw [List.append_assoc, hused]
          exact hused₂ t
  bad {s fault} h t := by
    cases hps : p s with
    | more => simp [hps, Progress.andThen] at h
    | bad fault' =>
        rw [hps] at h
        rw [hp.bad hps t]
        exact h
    | done a rest =>
        rw [hps] at h
        obtain ⟨used, rfl, -, hused⟩ := hp.done hps
        rw [List.append_assoc, hused]
        exact (hnext a).bad h t

/-! ## The readers of a request -/

/-- A line takes its text and the CRLF. -/
theorem textLine_done {s text rest : Bytes} (h : textLine s = .done text rest) :
    s = text ++ Bytes.crlf ++ rest ∧ ∀ t, textLine (text ++ Bytes.crlf ++ t) = .done text t := by
  unfold textLine at h ⊢
  cases hline : s.line? with
  | none => simp [hline] at h
  | some p =>
      obtain ⟨line, behind⟩ := p
      simp only [hline] at h
      cases hfault : Text.Utf8.fault? line with
      | some why => simp [hfault] at h
      | none =>
          simp only [hfault] at h
          obtain ⟨rfl, rfl⟩ := Progress.done.inj h
          obtain ⟨hs, hused⟩ := Bytes.line?_eq_some hline
          refine ⟨hs, fun t => ?_⟩
          rw [hused t]
          simp only [hfault]

theorem textLine_settles : Settles 2 textLine where
  done {s text rest} h := by
    obtain ⟨hs, hused⟩ := textLine_done h
    exact ⟨text ++ Bytes.crlf, hs, by simp [Bytes.crlf], hused⟩
  bad {s fault} h t := by
    unfold textLine at h ⊢
    cases hline : s.line? with
    | none => simp [hline] at h
    | some p =>
        obtain ⟨line, behind⟩ := p
        rw [Bytes.line?_append hline t]
        simp only [hline] at h
        cases hfault : Text.Utf8.fault? line with
        | none => simp [hfault] at h
        | some why => simpa [hfault] using h

theorem integerLine_settles : Settles 2 integerLine := by
  refine textLine_settles.andThen (n := 0) fun text => ?_
  cases Text.Decimal.readInt64 text with
  | error why => exact settles_bad 0 _
  | ok n => exact settles_done n

theorem bulkBody_settles (n : Nat) : Settles 2 (bulkBody n) where
  done {s part rest} h := by
    unfold bulkBody at h
    split at h
    · cases h
    · cases h
    · rename_i a b behind hdrop
      split at h
      · rename_i hcrlf
        obtain ⟨rfl, rfl⟩ := hcrlf
        obtain ⟨rfl, rfl⟩ := Progress.done.inj h
        have hlen : (s.take n).length = n := by
          have := congrArg List.length hdrop
          simp only [List.length_drop, List.length_cons] at this
          simp only [List.length_take]
          omega
        refine ⟨s.take n ++ [13, 10], ?_, by simp, fun t => ?_⟩
        · rw [List.append_assoc]
          exact ((List.take_append_drop n s).symm.trans (by rw [hdrop]; rfl))
        · unfold bulkBody
          rw [List.append_assoc, List.drop_left' hlen, List.take_left' hlen]
          rfl
      · cases h
  bad {s fault} h t := by
    unfold bulkBody at h ⊢
    split at h
    · cases h
    · cases h
    · rename_i a b behind hdrop
      split at h
      · cases h
      · rename_i hcrlf
        have hle : n ≤ s.length := by
          have := congrArg List.length hdrop
          simp only [List.length_drop, List.length_cons] at this
          omega
        rw [List.drop_append_of_le_length hle, hdrop]
        simpa only [List.cons_append, if_neg hcrlf] using h

theorem bulk_settles : Settles 2 bulk := by
  refine integerLine_settles.andThen (n := 0) fun length => ?_
  exact (settles_bad 0 _).ite ((settles_bad 0 _).ite ((bulkBody_settles _).mono (Nat.zero_le _)))

/-- A reader that looks at the first byte and then reads on. -/
theorem settles_cons {α : Type} {least : Nat} {p : Bytes → Progress α} (hnil : p [] = .more)
    (hcons : ∀ b, Settles least (fun s => p (b :: s))) : Settles (least + 1) p where
  done {s part rest} h := by
    cases s with
    | nil => simp [hnil] at h
    | cons b s =>
        obtain ⟨used, rfl, hlen, hused⟩ := (hcons b).done h
        exact ⟨b :: used, rfl, Nat.succ_le_succ hlen, hused⟩
  bad {s fault} h t := by
    cases s with
    | nil => simp [hnil] at h
    | cons b s => exact (hcons b).bad h t

/-- What a reader settles it settles behind its first byte too. -/
theorem Settles.behind {α : Type} {least : Nat} {p : Bytes → Progress α}
    (h : Settles (least + 1) p) (b : UInt8) : Settles least (fun s => p (b :: s)) where
  done {s part rest} hp := by
    obtain ⟨used, hs, hlen, hused⟩ := h.done hp
    cases used with
    | nil => simp at hlen
    | cons a used =>
        obtain ⟨rfl, rfl⟩ := List.cons.inj hs
        exact ⟨used, rfl, Nat.le_of_succ_le_succ hlen, hused⟩
  bad hp t := h.bad hp t

theorem element_settles : Settles 3 element :=
  settles_cons rfl fun b => (bulk_settles.ite (settles_bad 2 (.unexpectedElement b)))

theorem elements_settles (n : Nat) : Settles 0 (elements n) := by
  induction n with
  | zero => exact settles_done []
  | succ n ih =>
      have h : Settles (3 + 0) (elements (n + 1)) :=
        element_settles.andThen fun arg =>
          ih.andThen (n := 0) fun args => settles_done (arg :: args)
      exact h.mono (Nat.zero_le _)

theorem array_settles : Settles 2 array := by
  refine integerLine_settles.andThen (n := 0) fun count => ?_
  exact (settles_bad 0 _).ite ((settles_bad 0 _).ite (elements_settles _))

/-- An inline request has a word, so its line has a byte besides the CRLF. -/
theorem inline_settles : Settles 3 inline where
  done {s part rest} h := by
    unfold inline at h
    cases hline : textLine s with
    | more => simp [hline, Progress.andThen] at h
    | bad fault => simp [hline, Progress.andThen] at h
    | done text behind =>
        obtain ⟨hs, hused⟩ := textLine_done hline
        rw [hline] at h
        simp only [Progress.andThen] at h
        cases hwords : Text.words (Text.Utf8.lossy text) with
        | nil => simp [hwords] at h
        | cons w ws =>
            simp only [hwords] at h
            obtain ⟨rfl, rfl⟩ := Progress.done.inj h
            refine ⟨text ++ Bytes.crlf, hs, ?_, fun t => ?_⟩
            · cases text with
              | nil => simp [Text.Utf8.lossy, Text.Utf8.lossyFrom, Text.words] at hwords
              | cons b text => simp [Bytes.crlf]
            · simp only [inline, hused t, Progress.andThen, hwords]
  bad {s fault} h t := by
    unfold inline at h ⊢
    cases hline : textLine s with
    | more => simp [hline, Progress.andThen] at h
    | bad why =>
        rw [textLine_settles.bad hline t]
        simpa [hline, Progress.andThen] using h
    | done text behind =>
        obtain ⟨rfl, hused⟩ := textLine_done hline
        rw [List.append_assoc, hused]
        rw [hline] at h
        simp only [Progress.andThen] at h ⊢
        cases hwords : Text.words (Text.Utf8.lossy text) with
        | nil => simpa [hwords] using h
        | cons w ws => simp [hwords] at h

theorem args_settles : Settles 3 args :=
  settles_cons rfl fun b => (array_settles.ite (inline_settles.behind b))

/-! ## Verdicts -/

theorem decode_eq_complete {s : Bytes} {arguments : List Bytes} {consumed : Nat}
    (h : decode s = .complete arguments consumed) :
    ∃ rest, args s = .done arguments rest ∧ consumed = s.length - rest.length := by
  unfold decode at h
  split at h
  · rename_i rest hargs
    obtain ⟨rfl, rfl⟩ := Verdict.complete.inj h
    exact ⟨rest, hargs, rfl⟩
  · cases h
  · cases h

/-- **A request is settled by the bytes it takes**, three or more, whatever stands behind. -/
theorem decode_complete {s : Bytes} {arguments : List Bytes} {consumed : Nat}
    (h : decode s = .complete arguments consumed) :
    3 ≤ consumed ∧ consumed ≤ s.length ∧
      ∀ t, decode (s.take consumed ++ t) = .complete arguments consumed := by
  obtain ⟨rest, hargs, rfl⟩ := decode_eq_complete h
  obtain ⟨used, rfl, hlen, hused⟩ := args_settles.done hargs
  have hcount : (used ++ rest).length - rest.length = used.length := by simp
  rw [hcount, List.take_left]
  refine ⟨hlen, by simp, fun t => ?_⟩
  simp [decode, hused t]

theorem decode_append_complete {s : Bytes} {arguments : List Bytes} {consumed : Nat}
    (h : decode s = .complete arguments consumed) (t : Bytes) :
    decode (s ++ t) = .complete arguments consumed := by
  have := (decode_complete h).2.2 (s.drop consumed ++ t)
  rwa [← List.append_assoc, List.take_append_drop] at this

/-- **A fault is settled by the bytes seen**, whatever stands behind. -/
theorem decode_append_malformed {s : Bytes} {fault : Fault} (h : decode s = .malformed fault)
    (t : Bytes) : decode (s ++ t) = .malformed fault := by
  unfold decode at h
  split at h
  · cases h
  · cases h
  · rename_i why hargs
    cases h
    simp [decode, args_settles.bad hargs t]

theorem decode_nil : decode [] = .incomplete := rfl

/-! ## Verdicts on less -/

/-- An undecided stretch of a request does not reach its end. -/
theorem length_lt_of_incomplete {s stretch : Bytes} {arguments : List Bytes} {consumed : Nat}
    (h : decode s = .complete arguments consumed) (hstretch : stretch <+: s)
    (hopen : decode stretch = .incomplete) : stretch.length < consumed := by
  obtain ⟨behind, rfl⟩ := hstretch
  refine Nat.lt_of_not_le fun hle => ?_
  -- the stretch holds all bytes that the request takes, so it is decided
  have hused := (decode_complete h).2.2 (stretch.drop consumed)
  rw [List.take_append_of_le_length hle, List.take_append_drop, hopen] at hused
  cases hused

/-- A stretch that does not reach the end of a request is undecided. -/
theorem decode_of_length_lt {s stretch : Bytes} {arguments : List Bytes} {consumed : Nat}
    (h : decode s = .complete arguments consumed) (hstretch : stretch <+: s)
    (hlen : stretch.length < consumed) : decode stretch = .incomplete := by
  obtain ⟨behind, rfl⟩ := hstretch
  cases hd : decode stretch with
  | incomplete => rfl
  | complete arguments' consumed' =>
      -- what is complete stays so, and takes no more than it had
      have hsame := decode_append_complete hd behind
      have hle := (decode_complete hd).2.1
      rw [h] at hsame
      obtain ⟨-, rfl⟩ := Verdict.complete.inj hsame
      omega
  | malformed fault =>
      have hsame := decode_append_malformed hd behind
      rw [h] at hsame
      cases hsame

/-- **Verdicts are final.** Whatever arrives behind bytes that are decided, a request or a fault,
leaves the verdict as it is. And a request is decided with its last byte and not before: the bytes
that it takes are a request with the same arguments, and anything shorter at their front is
undecided. -/
theorem decode_final (s : Bytes) :
    (decode s ≠ .incomplete → ∀ t, decode (s ++ t) = decode s) ∧
      ∀ arguments consumed, decode s = .complete arguments consumed →
        decode (s.take consumed) = .complete arguments consumed ∧
        ∀ stretch, stretch <+: s.take consumed → stretch.length < consumed →
          decode stretch = .incomplete := by
  refine ⟨fun hdecided t => ?_, fun arguments consumed h => ⟨?_, fun stretch hstretch => ?_⟩⟩
  · cases hd : decode s with
    | complete arguments consumed => exact decode_append_complete hd t
    | malformed fault => exact decode_append_malformed hd t
    | incomplete => exact absurd hd hdecided
  · simpa using (decode_complete h).2.2 []
  · exact decode_of_length_lt h (hstretch.trans (List.take_prefix ..))

/-- A request whose argument holds a CRLF, with another one begun behind it, and without the last
byte of its own; and a fault that more bytes do not undo. -/
theorem decode_final_binary :
    decode [42, 49, 13, 10, 36, 52, 13, 10, 13, 10, 36, 80, 13, 10, 42, 49] =
        .complete [[13, 10, 36, 80]] 14 ∧
      decode [42, 49, 13, 10, 36, 52, 13, 10, 13, 10, 36, 80, 13, 10] =
        .complete [[13, 10, 36, 80]] 14 ∧
      decode [42, 49, 13, 10, 36, 52, 13, 10, 13, 10, 36, 80, 13] = .incomplete ∧
      ∀ t, decode ([42, 48, 13, 10] ++ t) = .malformed (.arrayLength 0) := by
  have h := decode_final [42, 49, 13, 10, 36, 52, 13, 10, 13, 10, 36, 80, 13, 10, 42, 49]
  obtain ⟨hused, hless⟩ := h.2 [[13, 10, 36, 80]] 14 (by decide)
  exact ⟨by decide, hused, hless _ (by decide) (by decide),
    (decode_final [42, 48, 13, 10]).1 (by decide)⟩

end Request

end RespGateway
