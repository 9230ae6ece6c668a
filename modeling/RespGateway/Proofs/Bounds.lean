import RespGateway.Proofs.Cutting
import RespGateway.Proofs.Limits
import RespGateway.Request.Offsets
import RespGateway.Server

/-!
# Offsets stay within bounds

A reader by offsets may ask for a slice that does not exist, leave the word with a sum or
take a negative number for a length. It never does. Each reader of
`RespGateway.Request.Offsets` is shown to end without a `Hazard` and to find what the
reader of lists finds, whose rest tells the offset (`found`): so the one invariant that
links offsets to the length of the buffer is that what is left is a part of it.

A request takes three bytes or more, so taking requests off a buffer ends after at most a
third of its length (`drain_eq`), and its arguments begin with a name.
-/

namespace RespGateway.Request.Offsets

/-- Half of the words of 64 bits, `2 ^ 63`. No buffer is as long. -/
def reach : Nat := 9223372036854775808

/-! ## Where nothing goes wrong -/

theorem ok_bind {α β : Type} (a : α) (f : α → Except Hazard β) : (Except.ok a >>= f) = f a := rfl

theorem slice_eq {s : Bytes} {start stop : Nat} (h : start ≤ stop) (h' : stop ≤ s.length) :
    slice s start stop = .ok ((s.take stop).drop start) := if_pos ⟨h, h'⟩

theorem sliceFrom_eq {s : Bytes} {start : Nat} (h : start ≤ s.length) :
    sliceFrom s start = .ok (s.drop start) := by
  rw [sliceFrom, slice_eq h (Nat.le_refl _), List.take_length]

theorem sum_eq {a b : Nat} (h : a + b < 18446744073709551616) : sum a b = .ok (a + b) := if_pos h

/-- Offsets that do not lead out of the bytes can be added. -/
theorem sum_within {s : Bytes} {a b : Nat} (h : s.length < reach) (hin : a + b ≤ s.length) :
    sum a b = .ok (a + b) := by
  rw [reach] at h
  exact sum_eq (by omega)

theorem asLength_eq {n : Int} (h : 0 ≤ n) : asLength n = .ok n.toNat := if_pos h

theorem splitOff_eq {s : Bytes} {count : Nat} (h : count ≤ s.length) :
    splitOff s count = .ok (s.drop count) := if_pos h

/-- A slice behind the front of bytes is a slice of the rest. -/
theorem slice_behind (front : Bytes) {rest : Bytes} {i j : Nat} (h : i ≤ j) (h' : j ≤ rest.length) :
    slice (front ++ rest) (front.length + i) (front.length + j) =
      .ok ((rest.take j).drop i) := by
  have hstop : front.length + j ≤ (front ++ rest).length := by
    rw [List.length_append]
    omega
  rw [slice_eq (by omega) hstop, List.take_length_add_append, List.drop_length_add_append]

theorem crlfFrom_le {s : Bytes} {stop : Nat} (h : Bytes.crlfFrom 0 s = some stop) :
    stop + 2 ≤ s.length := by
  have hline : s.line? = some (s.take stop, s.drop (stop + 2)) := by
    rw [Bytes.line?, h]
    rfl
  have hlen := congrArg List.length (Bytes.line?_eq_some hline).1
  simp only [List.length_append, List.length_take, List.length_drop, Bytes.crlf,
    List.length_cons, List.length_nil] at hlen
  omega

theorem exists_two {s : Bytes} (h : 2 ≤ s.length) : ∃ a b rest, s = a :: b :: rest := by
  match s, h with
  | a :: b :: rest, _ => exact ⟨a, b, rest, rfl⟩

/-! ## The readers -/

/-- What a reader of lists says of the front of bytes, told by offsets. -/
def found {α : Type} (s : Bytes) : Progress α → Found α
  | .done part rest => .part part (s.length - rest.length)
  | .more => .more
  | .bad fault => .bad fault

theorem readLength_eq {b : UInt8} {s : Bytes} (h : (b :: s).length < reach) :
    readLength (b :: s) = .ok (found (b :: s) (integerLine s)) := by
  unfold readLength integerLine textLine Bytes.line?
  rw [sliceFrom_eq (Nat.succ_le_succ (Nat.zero_le _)), ok_bind, List.drop_succ_cons, List.drop_zero]
  cases hstop : Bytes.crlfFrom 0 s with
  | none => rfl
  | some stop =>
      have hle := crlfFrom_le hstop
      have hlen : (b :: s).length = s.length + 1 := List.length_cons
      have htext : slice (b :: s) 1 (1 + stop) = .ok (s.take stop) :=
        slice_behind [b] (i := 0) (Nat.zero_le _) (by omega)
      simp only [Option.map_some, sum_within h (show 1 + stop ≤ _ by omega),
        sum_within h (show 1 + stop + 2 ≤ _ by omega), ok_bind, htext]
      cases Text.Utf8.fault? (s.take stop) with
      | some why => rfl
      | none =>
          dsimp only [Progress.andThen]
          cases Text.Decimal.readInt64 (s.take stop) with
          | error why => rfl
          | ok n =>
              dsimp only [found]
              have hused : (b :: s).length - (s.drop (stop + 2)).length = 1 + stop + 2 := by
                rw [List.length_cons, List.length_drop]
                omega
              rw [hused]
              rfl

/-- The rest behind a line tells where the line ends. -/
theorem length_before (b : UInt8) (used rest : Bytes) :
    (b :: (used ++ rest)).length - rest.length = (b :: used).length := by
  simp only [List.length_cons, List.length_append]
  omega

theorem bulkBody_eq (front : Bytes) {rest : Bytes} {size : Nat}
    (h : (front ++ rest).length < reach) (hsize : size ≤ maxBulk) :
    bulkBody (front ++ rest) front.length size =
      .ok (found (front ++ rest) (Request.bulkBody size rest)) := by
  rw [List.length_append, reach] at h
  rw [maxBulk] at hsize
  unfold bulkBody Request.bulkBody
  have hstop : sum front.length size = .ok (front.length + size) := sum_eq (by omega)
  have hneeded : sum (front.length + size) 2 = .ok (front.length + size + 2) := sum_eq (by omega)
  simp only [hstop, hneeded, ok_bind, List.length_append]
  by_cases hshort : rest.length < size + 2
  · -- at most one byte has arrived behind the data
    have hdrop : (rest.drop size).length ≤ 1 := by
      rw [List.length_drop]
      omega
    rw [if_pos (by omega)]
    match rest.drop size, hdrop with
    | [], _ => rfl
    | [_], _ => rfl
  · rw [if_neg (by omega)]
    have hdata : slice (front ++ rest) front.length (front.length + size) =
        .ok (rest.take size) := slice_behind front (i := 0) (Nat.zero_le _) (by omega)
    have hend : slice (front ++ rest) (front.length + size) (front.length + size + 2) =
        .ok ((rest.drop size).take 2) := by
      rw [Nat.add_assoc, slice_behind front (Nat.le_add_right _ _) (by omega), List.drop_take,
        Nat.add_sub_cancel_left]
    simp only [hdata, hend, ok_bind]
    have hlen : (rest.drop size).length = rest.length - size := List.length_drop
    obtain ⟨a, b, behind, hdrop⟩ := exists_two (s := rest.drop size) (by omega)
    rw [hdrop, List.length_cons, List.length_cons] at hlen
    have hcrlf : (a :: b :: behind).take 2 = Bytes.crlf ↔ a = 13 ∧ b = 10 := by
      simp [Bytes.crlf]
    rw [hdrop]
    by_cases hab : a = 13 ∧ b = 10
    · dsimp only
      rw [if_neg (not_not.mpr (hcrlf.mpr hab)), if_pos hab]
      have hused : front.length + rest.length - behind.length = front.length + size + 2 := by
        omega
      simp only [found, List.length_append, hused]
      rfl
    · dsimp only
      rw [if_pos (mt hcrlf.mp hab), if_neg hab]
      rfl

theorem element_eq {s : Bytes} (h : s.length < reach) :
    element s = .ok (found s (Request.element s)) := by
  cases s with
  | nil => rfl
  | cons b s =>
      unfold element Request.element
      dsimp only [List.head?_cons]
      by_cases hb : b = 36
      · rw [if_neg (not_not.mpr hb), if_pos hb, readLength_eq h, ok_bind]
        unfold bulk
        cases hline : integerLine s with
        | more => rfl
        | bad fault => rfl
        | done length rest =>
            obtain ⟨used, rfl, -, -⟩ := integerLine_settles.done hline
            dsimp only [found, Progress.andThen]
            rw [length_before b used rest]
            by_cases hnegative : length < 0
            · rw [if_pos hnegative, if_pos hnegative]
              rfl
            · rw [if_neg hnegative, if_neg hnegative, asLength_eq (by omega), ok_bind]
              by_cases hlarge : maxBulk < length.toNat
              · rw [if_pos hlarge, if_pos hlarge]
                rfl
              · rw [if_neg hlarge, if_neg hlarge]
                exact bulkBody_eq (b :: used) h (Nat.le_of_not_lt hlarge)
      · rw [if_pos hb, if_neg hb]
        rfl

/-- The loop over the arguments keeps its offset within the bytes. -/
theorem elements_eq {s : Bytes} (h : s.length < reach) (count : Nat) {offset : Nat}
    (args : List Bytes) (hoffset : offset ≤ s.length) :
    elements s count args offset =
      .ok (found s ((Request.elements count (s.drop offset)).andThen
        fun later rest => .done (args ++ later) rest)) := by
  induction count generalizing args offset with
  | zero =>
      have hused : s.length - (s.drop offset).length = offset := by
        rw [List.length_drop]
        omega
      simp only [elements, Request.elements, Progress.andThen, found, hused, List.append_nil]
      rfl
  | succ count ih =>
      have hdrop : (s.drop offset).length = s.length - offset := List.length_drop
      rw [elements, Request.elements, sliceFrom_eq hoffset, ok_bind, element_eq (by omega), ok_bind]
      cases helement : Request.element (s.drop offset) with
      | more => rfl
      | bad fault => rfl
      | done arg rest =>
          obtain ⟨used, hsplit, -, -⟩ := element_settles.done helement
          have hlen := congrArg List.length hsplit
          rw [List.length_append] at hlen
          have hused : (s.drop offset).length - rest.length = used.length := by omega
          have hrest : s.drop (offset + used.length) = rest := by
            rw [← List.drop_drop, hsplit, List.drop_left]
          dsimp only [found, Progress.andThen]
          rw [hused, sum_within h (by omega), ok_bind, ih _ (by omega), hrest]
          cases Request.elements count rest with
          | more => rfl
          | bad fault => rfl
          | done later rest =>
              dsimp only [Progress.andThen]
              rw [List.append_assoc]
              rfl

theorem array_eq {b : UInt8} {s : Bytes} (h : (b :: s).length < reach) :
    array (b :: s) = .ok (found (b :: s) (Request.array s)) := by
  unfold array Request.array
  rw [readLength_eq h, ok_bind]
  cases hline : integerLine s with
  | more => rfl
  | bad fault => rfl
  | done count rest =>
      obtain ⟨used, rfl, -, -⟩ := integerLine_settles.done hline
      have hdrop : (b :: (used ++ rest)).drop (b :: used).length = rest := by
        rw [← List.cons_append]
        exact List.drop_left
      dsimp only [found, Progress.andThen]
      rw [length_before b used rest]
      by_cases hpositive : count ≤ 0
      · rw [if_pos hpositive, if_pos hpositive]
        rfl
      · rw [if_neg hpositive, if_neg hpositive, asLength_eq (by omega), ok_bind]
        by_cases hlarge : maxArgs < count.toNat
        · rw [if_pos hlarge, if_pos hlarge]
          rfl
        · rw [if_neg hlarge, if_neg hlarge, elements_eq h _ _ (by simp), hdrop]
          cases Request.elements count.toNat rest <;> rfl

theorem inline_eq {s : Bytes} (h : s.length < reach) :
    inline s = .ok (found s (Request.inline s)) := by
  unfold inline Request.inline textLine Bytes.line?
  cases hstop : Bytes.crlfFrom 0 s with
  | none => rfl
  | some stop =>
      have hle := crlfFrom_le hstop
      have htext : slice s 0 stop = .ok (s.take stop) := slice_eq (Nat.zero_le _) (by omega)
      simp only [Option.map_some, htext, ok_bind]
      cases Text.Utf8.fault? (s.take stop) with
      | some why => rfl
      | none =>
          dsimp only [Progress.andThen]
          cases Text.words (Text.Utf8.lossy (s.take stop)) with
          | nil => rfl
          | cons w ws =>
              have hused : s.length - (s.drop (stop + 2)).length = stop + 2 := by
                rw [List.length_drop]
                omega
              dsimp only [found]
              rw [sum_within h hle, ok_bind, hused]
              rfl

theorem verdict_found (s : Bytes) : (found s (args s)).verdict = Request.decode s := by
  unfold Request.decode
  cases args s <;> rfl

/-- **By offsets nothing goes wrong**, and the same is found. -/
theorem decode_eq {s : Bytes} (h : s.length < reach) : decode s = .ok (Request.decode s) := by
  rw [← verdict_found]
  cases s with
  | nil => rfl
  | cons b s =>
      unfold decode args
      dsimp only [List.head?_cons]
      by_cases hb : b = 42
      · rw [if_pos hb, if_pos hb, array_eq h]
        rfl
      · rw [if_neg hb, if_neg hb, inline_eq h]
        rfl

/-! ## Taking requests off a buffer -/

/-- The loop over a buffer ends, for each round takes three bytes or more. -/
theorem drain_eq {s : Bytes} (h : s.length < reach) {rounds : Nat}
    (hrounds : s.length / 3 < rounds) : drain rounds s = .ok (some (Request.drain s)) := by
  induction rounds generalizing s with
  | zero => omega
  | succ rounds ih =>
      rw [drain, decode_eq h, ok_bind]
      cases hdecode : Request.decode s with
      | incomplete =>
          rw [drain_incomplete hdecode]
          rfl
      | malformed fault =>
          rw [drain_malformed hdecode]
          rfl
      | complete arguments consumed =>
          obtain ⟨hthree, hle, -⟩ := decode_complete hdecode
          have hlen : (s.drop consumed).length = s.length - consumed := List.length_drop
          dsimp only
          rw [splitOff_eq hle, ok_bind, ih (by omega) (by omega), drain_complete hdecode]
          rfl

/-- A third as many requests as bytes. -/
theorem length_requests_le (s : Bytes) : 3 * (Request.drain s).requests.length ≤ s.length := by
  induction s using drain_induction with
  | complete s arguments consumed h ih =>
      obtain ⟨hthree, hle, -⟩ := decode_complete h
      rw [List.length_drop] at ih
      rw [drain_complete h, Drained.behind, List.length_cons]
      omega
  | incomplete s h =>
      rw [drain_incomplete h]
      exact Nat.zero_le _
  | malformed s fault h =>
      rw [drain_malformed h]
      exact Nat.zero_le _

/-- A request that is complete has a name. -/
theorem exists_name {s : Bytes} {arguments : List Bytes} {consumed : Nat}
    (h : Request.decode s = .complete arguments consumed) :
    ∃ name later, arguments = name :: later := by
  obtain ⟨-, hform⟩ := decode_eq_complete_iff.mp h
  exact List.exists_cons_of_ne_nil hform.ne_nil

/-- A connection keeps its buffer while a request is handled. -/
theorem handle_buffer {server : Server} {i : Nat} (hi : i < server.connections.length)
    (c : Connection) (arguments : List Bytes) :
    ∃ later, (server.handle i c arguments).connections[i]? = some later ∧
      later.buffer = c.buffer := by
  unfold Server.handle
  cases Exchange.decode c.session arguments with
  | error refusal => exact ⟨_, List.getElem?_set_self hi, rfl⟩
  | ok x =>
      dsimp only
      by_cases hquit : x.command = .quit
      · rw [if_pos hquit]
        exact ⟨_, List.getElem?_set_self hi, rfl⟩
      · rw [if_neg hquit]
        exact ⟨_, List.getElem?_set_self hi, rfl⟩

/-- Reading a buffer is safe, and it gets somewhere. -/
structure Safe (s : Bytes) : Prop where
  /-- No slice, sum or length goes wrong, and what is found is what `Request.decode` finds. -/
  decoded : decode s = .ok (Request.decode s)
  /-- A request takes three bytes or more, which are there, and it has a name. -/
  complete : ∀ arguments consumed, Request.decode s = .complete arguments consumed →
    3 ≤ consumed ∧ consumed ≤ s.length ∧ ∃ name later, arguments = name :: later
  /-- Taking off requests ends, and never takes off more than there is. -/
  drained : ∀ rounds, s.length / 3 < rounds → drain rounds s = .ok (some (Request.drain s))
  few : 3 * (Request.drain s).requests.length ≤ s.length
  /-- What the reader of a connection handles has a name, and the bytes are off its buffer. -/
  handled : ∀ (server : Server) (i : Nat) (c : Connection) (arguments : List Bytes)
    (consumed : Nat), server.connections[i]? = some c → c.reader = .reading → c.buffer = s →
    Request.decode s = .complete arguments consumed →
    ∃ name later, arguments = name :: later ∧
      server.perform? (.reader i) =
        some (server.handle i { c with buffer := s.drop consumed } (name :: later)) ∧
      ∃ c', (server.handle i { c with buffer := s.drop consumed }
        (name :: later)).connections[i]? = some c' ∧ c'.buffer = s.drop consumed

/-- **The decoder is safe and makes progress** on every buffer of less than `2 ^ 63` bytes. -/
theorem decode_safe {s : Bytes} (h : s.length < reach) : Safe s where
  decoded := decode_eq h
  complete arguments consumed hdecode := by
    obtain ⟨hthree, hle, -⟩ := decode_complete hdecode
    exact ⟨hthree, hle, exists_name hdecode⟩
  drained _ hrounds := drain_eq h hrounds
  few := length_requests_le s
  handled server i c arguments consumed hc hreader hbuffer hdecode := by
    obtain ⟨name, later, rfl⟩ := exists_name hdecode
    obtain ⟨hi, -⟩ := List.getElem?_eq_some_iff.mp hc
    refine ⟨name, later, rfl, ?_, handle_buffer hi _ _⟩
    have hstep : server.perform? (.reader i) = server.stepReader? i c := by
      rw [Server.perform?, hc]
      rfl
    rw [hstep, Server.stepReader?, hreader, hbuffer]
    simp only [hdecode]

/-- An array, a line, and an array that is not all there. -/
theorem decode_safe_twice :
    decode [42, 49, 13, 10, 36, 48, 13, 10, 13, 10, 120, 13, 10, 42, 50] =
        .ok (.complete [[]] 10) ∧
      drain 6 [42, 49, 13, 10, 36, 48, 13, 10, 13, 10, 120, 13, 10, 42, 50] =
        .ok (some ⟨[([[]], 10), ([[120]], 3)], [42, 50], none⟩) := by
  have hsafe : Safe [42, 49, 13, 10, 36, 48, 13, 10, 13, 10, 120, 13, 10, 42, 50] :=
    decode_safe (by decide)
  rw [hsafe.decoded, hsafe.drained 6 (by decide)]
  decide +kernel

end RespGateway.Request.Offsets
