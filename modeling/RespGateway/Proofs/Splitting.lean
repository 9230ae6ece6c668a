import RespGateway.Proofs.Carried
import RespGateway.Proofs.ReadBack
import RespGateway.Proofs.Verdict

/-!
# Replies that travel together

Replies that are written one behind another can be told apart again. `read?` takes the
reply off the front of bytes: its first byte says of which kind it is, its line ends at
the first CRLF, and the length in the line of a bulk string says how many bytes follow,
whatever they are. So no reply begins with another one, and bytes are the wire form of
one list of replies at most. This holds of replies whose text has no CRLF in it.
-/

namespace RespGateway

namespace Bytes

/-- A line without a CRLF in it ends where it was ended. -/
theorem line?_crlf {content : Bytes} (h : ¬crlf <:+: content) (rest : Bytes) :
    line? (content ++ (crlf ++ rest)) = some (content, rest) := by
  induction content with
  | nil => rfl
  | cons b content ih =>
      have hrest : ¬crlf <:+: content :=
        fun hin => h (hin.trans (List.suffix_cons b content).isInfix)
      rw [List.cons_append, line?_cons, if_neg, ih hrest]
      · rfl
      · -- a CR is not followed by an LF of the line, nor by the CR of its end
        rintro ⟨rfl, hhead⟩
        cases content with
        | nil => simp [crlf] at hhead
        | cons a content =>
            obtain rfl : a = 10 := by simpa using hhead
            exact h ⟨[], content, rfl⟩

end Bytes

namespace Reply

/-! ## Writing -/

/-- The text of a reply has no CRLF in it. -/
def Unbroken : Reply → Prop
  | .simple text => ¬['\r', '\n'] <:+: text.toList
  | .error text => ¬['\r', '\n'] <:+: text.toList
  | _ => True

instance : DecidablePred Unbroken
  | .simple text => inferInstanceAs (Decidable (¬['\r', '\n'] <:+: text.toList))
  | .error text => inferInstanceAs (Decidable (¬['\r', '\n'] <:+: text.toList))
  | .integer _ => inferInstanceAs (Decidable True)
  | .bulk _ => inferInstanceAs (Decidable True)
  | .nil => inferInstanceAs (Decidable True)

theorem encodeOnto_eq (written : Bytes) (r : Reply) :
    r.encodeOnto written = written ++ r.encode := by
  cases r <;> simp [encodeOnto, encode, lineOnto, line]

theorem foldl_encodeOnto (written : Bytes) (replies : List Reply) :
    replies.foldl encodeOnto written = written ++ replies.flatMap encode := by
  induction replies generalizing written with
  | nil => simp
  | cons r replies ih =>
      rw [List.foldl_cons, ih, encodeOnto_eq, List.flatMap_cons, List.append_assoc]

/-! ## Reading -/

/-- The text on a line. -/
def textOf (content : Bytes) : String := String.ofList (Text.Utf8.lossy content)

/-- The reply that a line begins, and what stands behind it. -/
def ofLine (first : UInt8) (content rest : Bytes) : Option (Reply × Bytes) :=
  if first = 43 then some (.simple (textOf content), rest)
  else if first = 45 then some (.error (textOf content), rest)
  else if first = 58 then some (.integer (Int64.ofInt (Text.Decimal.intValue content)), rest)
  else if first = 36 then
    if content = [45, 49] then some (.nil, rest)
    else
      let length := Text.Decimal.value content
      some (.bulk (rest.take length), rest.drop (length + 2))
  else none

/-- The reply at the front of bytes, and what stands behind it. -/
def read? : Bytes → Option (Reply × Bytes)
  | [] => none
  | first :: s => (Bytes.line? s).bind fun (content, rest) => ofLine first content rest

/-- At most `fuel` replies, one behind another and nothing behind the last. -/
def splitWithin : Nat → Bytes → Option (List Reply)
  | _, [] => some []
  | 0, _ :: _ => none
  | fuel + 1, b :: s =>
    (read? (b :: s)).bind fun (r, rest) => (splitWithin fuel rest).map (r :: ·)

/-- The replies that bytes are made of. A reply takes at least one byte, so there are no more of
them than bytes. -/
def split? (s : Bytes) : Option (List Reply) := splitWithin s.length s

/-! ## Reading what was written -/

theorem read?_line (first : UInt8) {content : Bytes} (h : ¬Bytes.crlf <:+: content)
    (rest : Bytes) : read? (line first content ++ rest) = ofLine first content rest := by
  rw [line, List.cons_append, List.append_assoc, read?, Bytes.line?_crlf h]
  rfl

/-- A text without a CRLF is written without one. -/
theorem unbroken_ofString {text : String} (h : ¬['\r', '\n'] <:+: text.toList) :
    ¬Bytes.crlf <:+: Text.Utf8.ofString text := fun hin => h (Text.Utf8.crlf_infix_encode hin)

/-- There is no CR among digits. -/
theorem unbroken_ofNat (n : Nat) : ¬Bytes.crlf <:+: Text.Decimal.ofNat n := by
  intro hin
  have hcr : (13 : UInt8) ∈ Text.Decimal.ofNat n := hin.subset (by simp [Bytes.crlf])
  exact absurd (Text.Decimal.digit_of_mem_ofNat hcr).1 (by decide)

theorem unbroken_ofInt (n : Int) : ¬Bytes.crlf <:+: Text.Decimal.ofInt n := by
  cases n with
  | ofNat n => exact unbroken_ofNat n
  | negSucc n =>
      intro hin
      rcases List.infix_cons_iff.mp hin with hbegins | hin
      · simp [Bytes.crlf] at hbegins
      · exact unbroken_ofNat (n + 1) hin

/-- A length is not taken for the sign of nil. -/
theorem ofNat_ne_nil_sign (n : Nat) : Text.Decimal.ofNat n ≠ [45, 49] := by
  intro heq
  have hminus : (45 : UInt8) ∈ Text.Decimal.ofNat n := by simp [heq]
  exact absurd (Text.Decimal.digit_of_mem_ofNat hminus).1 (by decide)

/-- **A reply that was written is read, whatever stands behind it.** -/
theorem read?_encode {r : Reply} (h : r.Unbroken) (rest : Bytes) :
    read? (r.encode ++ rest) = some (r, rest) := by
  cases r with
  | simple text =>
      rw [encode, read?_line 43 (unbroken_ofString h)]
      simp only [ofLine, textOf, Text.Utf8.ofList_lossy_ofString, if_true]
  | error text =>
      rw [encode, read?_line 45 (unbroken_ofString h)]
      simp only [ofLine, textOf, Text.Utf8.ofList_lossy_ofString]
      rfl
  | integer value =>
      rw [encode, read?_line 58 (unbroken_ofInt _)]
      simp only [ofLine, Text.Decimal.intValue_ofInt, Int64.ofInt_toInt]
      rfl
  | bulk data =>
      -- the length in the line tells where the data ends, so what is in it does not matter
      have hwire : (bulk data).encode ++ rest =
          line 36 (Text.Decimal.ofNat data.length) ++ (data ++ (Bytes.crlf ++ rest)) := by
        rw [encode, List.append_assoc, List.append_assoc]
      have hdrop : (data ++ (Bytes.crlf ++ rest)).drop (data.length + 2) = rest := by
        rw [← List.append_assoc]
        exact List.drop_left' (List.length_append ..)
      rw [hwire, read?_line 36 (unbroken_ofNat _)]
      simp only [ofLine, Text.Decimal.value_ofNat, if_neg (ofNat_ne_nil_sign _),
        List.take_left', hdrop]
      rfl
  | nil =>
      rw [encode, read?_line 36 (by decide)]
      rfl

theorem encode_ne_nil (r : Reply) : r.encode ≠ [] := by
  cases r <;> simp [encode, line]

theorem length_le_encode (replies : List Reply) :
    replies.length ≤ (replies.flatMap encode).length := by
  induction replies with
  | nil => exact Nat.le_refl _
  | cons r replies ih =>
      have := List.length_pos_of_ne_nil r.encode_ne_nil
      rw [List.flatMap_cons, List.length_append, List.length_cons]
      omega

theorem splitWithin_encode {replies : List Reply} (h : ∀ r ∈ replies, r.Unbroken) :
    ∀ {fuel : Nat}, replies.length ≤ fuel →
      splitWithin fuel (replies.flatMap encode) = some replies := by
  induction replies with
  | nil =>
      intro fuel _
      cases fuel <;> rfl
  | cons r replies ih =>
      intro fuel hfuel
      obtain ⟨fuel, rfl⟩ : ∃ n, fuel = n + 1 := ⟨fuel - 1, by rw [List.length_cons] at hfuel; omega⟩
      have hread := read?_encode (h r (List.mem_cons_self ..)) (replies.flatMap encode)
      have hrest := ih (fun r' hr' => h r' (List.mem_cons_of_mem _ hr'))
        (Nat.le_of_succ_le_succ hfuel)
      rw [List.flatMap_cons]
      cases hwire : r.encode ++ replies.flatMap encode with
      | nil => exact absurd (List.append_eq_nil_iff.mp hwire).1 r.encode_ne_nil
      | cons b s =>
          rw [hwire] at hread
          rw [splitWithin, hread, Option.bind_some]
          dsimp only
          rw [hrest, Option.map_some]

/-- **Replies that were written one behind another are told apart.** -/
theorem split?_encode {replies : List Reply} (h : ∀ r ∈ replies, r.Unbroken) :
    split? (replies.flatMap encode) = some replies :=
  splitWithin_encode h (length_le_encode replies)

/-- No reply begins with another one. -/
theorem eq_of_encode_prefix {r r' : Reply} (h : r.Unbroken) (h' : r'.Unbroken)
    (hbegins : r.encode <+: r'.encode) : r = r' := by
  obtain ⟨rest, heq⟩ := hbegins
  have hread := read?_encode h rest
  have hread' := read?_encode h' []
  rw [List.append_nil, ← heq, hread] at hread'
  exact (Prod.mk.inj (Option.some.inj hread')).1

/-- **Replies can be told apart on the wire**: their wire form determines them, one reply or many,
and writing them behind other bytes adds it to these and changes nothing else. -/
theorem encode_uniquely_decodable {replies replies' : List Reply}
    (h : ∀ r ∈ replies, r.Unbroken) (h' : ∀ r ∈ replies', r.Unbroken) :
    (replies.flatMap encode = replies'.flatMap encode → replies = replies') ∧
    (∀ r ∈ replies, ∀ r' ∈ replies', r.encode <+: r'.encode → r = r') ∧
    (∀ (written : Bytes) (r : Reply), r.encodeOnto written = written ++ r.encodeOnto [] ∧
      r.encodeOnto [] = r.encode) ∧
    (∀ written : Bytes, written <+: replies.foldl encodeOnto written ∧
      split? ((replies.foldl encodeOnto written).drop written.length) = some replies) ∧
    ∀ items : List Outgoing, items.map (·.content) = replies →
      split? (wire items) = some replies := by
  refine ⟨fun heq => ?_, fun r hr r' hr' => eq_of_encode_prefix (h r hr) (h' r' hr'), ?_, ?_, ?_⟩
  · have hsplit := split?_encode h
    rw [heq, split?_encode h'] at hsplit
    exact (Option.some.inj hsplit).symm
  · intro written r
    exact ⟨by rw [encodeOnto_eq, encodeOnto_eq]; rfl, encodeOnto_eq [] r⟩
  · intro written
    rw [foldl_encodeOnto, List.drop_left]
    exact ⟨List.prefix_append .., split?_encode h⟩
  · rintro items rfl
    rw [wire, ← List.flatMap_map]
    exact split?_encode h

/-- A status, an empty bulk string, one that holds the wire form of a reply, and nil. -/
theorem encode_uniquely_decodable_nested :
    (∀ r ∈ [ok, .bulk [], .bulk (Reply.nil.encode), .nil], r.Unbroken) ∧
      split? ([ok, .bulk [], .bulk (Reply.nil.encode), .nil].foldl encodeOnto [13, 10] |>.drop 2) =
        some [ok, .bulk [], .bulk (Reply.nil.encode), .nil] :=
  have h : ∀ r ∈ [ok, .bulk [], .bulk (Reply.nil.encode), .nil], r.Unbroken := by decide
  ⟨h, ((encode_uniquely_decodable h h).2.2.2.1 [13, 10]).2⟩

end Reply

end RespGateway
