import RespGateway.Proofs.Grammar
import RespGateway.Exchange

/-!
# Requests written and read back

A list of arguments is written as an array, each argument in the wire form of a bulk
string (`encode`). It is read back from that, whatever stands behind it, exactly if an
array may announce it: it is not empty, and neither it nor one of its arguments is too
long (`decode_encode`). So every request has a normal form. However its lengths are
spelled, and if it is a line, its arguments written as an array open the same exchange.
-/

namespace RespGateway.Request

/-- The wire form of a request: the number of its arguments, and each as a bulk string. -/
def encode (arguments : List Bytes) : Bytes :=
  Reply.line 42 (Text.Decimal.ofNat arguments.length) ++
    arguments.flatMap fun data => (Reply.bulk data).encode

/-- Arguments that an array may announce. -/
structure Announceable (arguments : List Bytes) : Prop where
  ne_nil : arguments ≠ []
  count : arguments.length ≤ maxArgs
  size : ∀ data ∈ arguments, data.length ≤ maxBulk

/-- What a client opens with the request at the front of what it sent, if one is complete. -/
def opened? (client : UInt64) (s : Bytes) : Option (Except Exchange.Refusal Exchange) :=
  match decode s with
  | .complete arguments _ => some (Exchange.decode client arguments)
  | _ => none

/-! ## Writing is in the grammar -/

theorem element_bulk {data : Bytes} (h : data.length ≤ maxBulk) :
    Element data (Reply.bulk data).encode := by
  change Element data (36 :: Text.Decimal.ofNat data.length ++ Bytes.crlf ++ data ++ Bytes.crlf)
  exact .mk (Text.Decimal.numeral_ofNat data.length) h

theorem elements_bulk {arguments : List Bytes} (h : ∀ data ∈ arguments, data.length ≤ maxBulk) :
    List.Forall₂ Element arguments (arguments.map fun data => (Reply.bulk data).encode) := by
  induction arguments with
  | nil => exact .nil
  | cons data arguments ih =>
      rw [List.forall_mem_cons] at h
      exact .cons (element_bulk h.1) (ih h.2)

/-- Arguments that may be announced are written as a request with these arguments. -/
theorem Announceable.form {arguments : List Bytes} (h : Announceable arguments) :
    Form arguments (encode arguments) := by
  rw [encode, List.flatMap_def]
  exact .array (Text.Decimal.numeral_ofNat arguments.length) h.ne_nil h.count (elements_bulk h.size)

/-! ## An array announces its arguments -/

theorem Element.le_maxBulk {data u : Bytes} (h : Element data u) : data.length ≤ maxBulk := by
  cases h with
  | mk _ hle => exact hle

theorem le_maxBulk_of_elements {arguments spans : List Bytes}
    (h : List.Forall₂ Element arguments spans) : ∀ data ∈ arguments, data.length ≤ maxBulk := by
  induction h with
  | nil => simp
  | cons helement _ ih => exact List.forall_mem_cons.mpr ⟨helement.le_maxBulk, ih⟩

theorem Form.announceable {arguments : List Bytes} {u : Bytes} (h : Form arguments (42 :: u)) :
    Announceable arguments := by
  obtain ⟨text, spans, -, hne, hcount, hspans, -⟩ := form_star_iff.mp h
  exact ⟨hne, hcount, le_maxBulk_of_elements hspans⟩

/-- Whatever is read from an array an array may announce. -/
theorem announceable_of_complete {s : Bytes} {arguments : List Bytes} {consumed : Nat}
    (h : decode (42 :: s) = .complete arguments consumed) : Announceable arguments := by
  have hpos := (decode_complete h).1
  obtain ⟨-, hform⟩ := decode_eq_complete_iff.mp h
  obtain ⟨n, rfl⟩ : ∃ n, consumed = n + 1 := ⟨consumed - 1, by omega⟩
  exact hform.announceable

/-! ## The round trip -/

theorem opened?_complete {s : Bytes} {arguments : List Bytes} {consumed : Nat}
    (h : decode s = .complete arguments consumed) (client : UInt64) :
    opened? client s = some (Exchange.decode client arguments) := by
  rw [opened?, h]

/-- **What is written is read back**, whatever stands behind it: any arguments that an array may
announce, and only these. So a request can be replaced by its arguments written as an array. An
array always can, and a line if its arguments may be announced; the client then opens the same
exchange, or is refused for the same reason. -/
theorem decode_encode (arguments : List Bytes) :
    (Announceable arguments ↔
      ∀ rest, decode (encode arguments ++ rest) = .complete arguments (encode arguments).length) ∧
    ∀ s consumed, decode s = .complete arguments consumed →
      (s.head? = some 42 → Announceable arguments) ∧
      (Announceable arguments → ∀ (client : UInt64) (rest : Bytes),
        opened? client (encode arguments ++ rest) = opened? client s) := by
  have hread : Announceable arguments → ∀ rest,
      decode (encode arguments ++ rest) = .complete arguments (encode arguments).length :=
    fun h rest => h.form.decode_append rest
  refine ⟨⟨hread, fun h => ?_⟩, fun s consumed hs => ⟨fun hstar => ?_, fun h client rest => ?_⟩⟩
  · -- what is written is an array
    exact announceable_of_complete (h [])
  · cases s with
    | nil => cases hstar
    | cons b s =>
        obtain rfl := Option.some.inj hstar
        exact announceable_of_complete hs
  · rw [opened?_complete (hread h rest), opened?_complete hs]

/-- A count with leading zeros, a length with a plus sign, another of minus zero; the data holds
what looks like the end of a line and the beginning of an array. -/
theorem decode_encode_spelled :
    decode [42, 48, 48, 50, 13, 10, 36, 43, 51, 13, 10, 13, 10, 42, 13, 10, 36, 45, 48, 13, 10, 13,
        10] = .complete [[13, 10, 42], []] 23 ∧
      (∀ rest, decode (encode [[13, 10, 42], []] ++ rest) = .complete [[13, 10, 42], []] 19) ∧
      opened? 7 (encode [[13, 10, 42], []] ++ [42]) =
        opened? 7 [42, 48, 48, 50, 13, 10, 36, 43, 51, 13, 10, 13, 10, 42, 13, 10, 36, 45, 48, 13,
          10, 13, 10] := by
  have hspelled : decode [42, 48, 48, 50, 13, 10, 36, 43, 51, 13, 10, 13, 10, 42, 13, 10, 36, 45,
      48, 13, 10, 13, 10] = .complete [[13, 10, 42], []] 23 := by decide
  obtain ⟨hread, hopened⟩ := decode_encode [[13, 10, 42], []]
  have h := (hopened _ _ hspelled).1 rfl
  exact ⟨hspelled, hread.mp h, (hopened _ _ hspelled).2 h 7 [42]⟩

end RespGateway.Request
