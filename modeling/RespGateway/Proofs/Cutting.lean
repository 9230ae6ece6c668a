import Mathlib.Data.List.Forall2
import RespGateway.Proofs.Verdict

/-!
# A stream may be cut anywhere

A client writes one stream of bytes; the network cuts it into pieces as it likes. The
requests that are found, and the fault if there is one, are those of the whole stream:
`feed` over any pieces agrees with `drain` of all of them at once (`feed_together`).
Two ways of cutting one stream therefore agree with each other (`feed_cut`).

The requests lie one behind the other in the stream. Each takes the bytes that its
count says, and these bytes alone decode to it; what is left over is the tail.
-/

namespace RespGateway.Request

/-! ## Draining a buffer -/

theorem drainWithin_eq :
    ∀ (n m : Nat) (s : Bytes), s.length ≤ n → s.length ≤ m → drainWithin n s = drainWithin m s
  | 0, m, s, hn, _ => by
      have hs : s = [] := List.length_eq_zero_iff.mp (Nat.le_zero.mp hn)
      subst hs
      cases m <;> rfl
  | n + 1, 0, s, _, hm => by
      have hs : s = [] := List.length_eq_zero_iff.mp (Nat.le_zero.mp hm)
      subst hs
      rfl
  | n + 1, m + 1, s, hn, hm => by
      rw [drainWithin, drainWithin]
      cases hd : decode s with
      | incomplete => rfl
      | malformed fault => rfl
      | complete arguments consumed =>
          -- a request takes at least three bytes, so less is left for less fuel
          obtain ⟨h3, -, -⟩ := decode_complete hd
          have hlen : (s.drop consumed).length = s.length - consumed := List.length_drop
          simp only [drainWithin_eq n m (s.drop consumed) (by omega) (by omega)]

/-- What was left over goes behind a request that was found before it. -/
def Drained.behind (d : Drained) (request : List Bytes × Nat) : Drained :=
  { d with requests := request :: d.requests }

theorem drain_complete {s : Bytes} {arguments : List Bytes} {consumed : Nat}
    (h : decode s = .complete arguments consumed) :
    drain s = (drain (s.drop consumed)).behind (arguments, consumed) := by
  obtain ⟨h3, hle, -⟩ := decode_complete h
  cases hs : s.length with
  | zero => omega
  | succ n =>
      rw [drain, hs, drainWithin]
      have hlen : (s.drop consumed).length = s.length - consumed := List.length_drop
      simp only [h, drainWithin_eq n _ (s.drop consumed) (by omega) (Nat.le_refl _)]
      rfl

theorem drain_incomplete {s : Bytes} (h : decode s = .incomplete) : drain s = ⟨[], s, none⟩ := by
  unfold drain
  cases hs : s.length with
  | zero => rfl
  | succ n => simp only [drainWithin, h]

theorem drain_malformed {s : Bytes} {fault : Fault} (h : decode s = .malformed fault) :
    drain s = ⟨[], s, some fault⟩ := by
  unfold drain
  cases hs : s.length with
  | zero =>
      rw [List.length_eq_zero_iff.mp hs, decode_nil] at h
      cases h
  | succ n => simp only [drainWithin, h]

/-- Induction along the requests at the front of a buffer. -/
theorem drain_induction {P : Bytes → Prop}
    (complete : ∀ s arguments consumed, decode s = .complete arguments consumed →
      P (s.drop consumed) → P s)
    (incomplete : ∀ s, decode s = .incomplete → P s)
    (malformed : ∀ s fault, decode s = .malformed fault → P s) (s : Bytes) : P s := by
  induction h : s.length using Nat.strongRecOn generalizing s with
  | ind n ih =>
      cases hd : decode s with
      | incomplete => exact incomplete s hd
      | malformed fault => exact malformed s fault hd
      | complete arguments consumed =>
          obtain ⟨h3, hle, -⟩ := decode_complete hd
          exact complete s arguments consumed hd
            (ih (s.drop consumed).length (by rw [List.length_drop]; omega) _ rfl)

/-- What is left over is undecided or begins with the fault. -/
theorem decode_rest (s : Bytes) :
    decode (drain s).rest =
      match (drain s).fault with
      | none => .incomplete
      | some fault => .malformed fault := by
  induction s using drain_induction with
  | complete s arguments consumed h ih =>
      rw [drain_complete h]
      exact ih
  | incomplete s h =>
      rw [drain_incomplete h]
      exact h
  | malformed s fault h =>
      rw [drain_malformed h]
      exact h

/-- What a buffer held with more bytes behind it. -/
def Drained.extend (d : Drained) (t : Bytes) : Drained :=
  match d.fault with
  | some _ => { d with rest := d.rest ++ t }
  | none =>
    let later := drain (d.rest ++ t)
    { later with requests := d.requests ++ later.requests }

/-- **Bytes that come later change nothing before them.** -/
theorem drain_append (s t : Bytes) : drain (s ++ t) = (drain s).extend t := by
  induction s using drain_induction with
  | complete s arguments consumed h ih =>
      obtain ⟨-, hle, -⟩ := decode_complete h
      rw [drain_complete h, drain_complete (decode_append_complete h t),
        List.drop_append_of_le_length hle, ih]
      unfold Drained.extend Drained.behind
      dsimp only
      split <;> rfl
  | incomplete s h =>
      rw [drain_incomplete h]
      rfl
  | malformed s fault h =>
      rw [drain_malformed h, drain_malformed (decode_append_malformed h t)]
      rfl

/-- The requests of a buffer lie one behind the other, each on the bytes that it took. -/
theorem drain_spans (s : Bytes) :
    ∃ spans : List Bytes, s = spans.flatten ++ (drain s).rest ∧
      List.Forall₂ (fun span request => span.length = request.2 ∧
        decode span = .complete request.1 request.2) spans (drain s).requests := by
  induction s using drain_induction with
  | complete s arguments consumed h ih =>
      obtain ⟨spans, hs, hspans⟩ := ih
      obtain ⟨-, hle, hused⟩ := decode_complete h
      rw [drain_complete h]
      refine ⟨s.take consumed :: spans, ?_, .cons ⟨?_, ?_⟩ hspans⟩
      · calc s = s.take consumed ++ s.drop consumed := (List.take_append_drop _ _).symm
          _ = s.take consumed ++ (spans.flatten ++ (drain (s.drop consumed)).rest) :=
            congrArg _ hs
          _ = _ := by rw [← List.append_assoc]; rfl
      · rw [List.length_take]
        omega
      · simpa using hused []
  | incomplete s h =>
      rw [drain_incomplete h]
      exact ⟨[], rfl, .nil⟩
  | malformed s fault h =>
      rw [drain_malformed h]
      exact ⟨[], rfl, .nil⟩

/-! ## Feeding a buffer piece by piece -/

/-- What pieces yield together: their requests in order, the first fault, and what is left over by
the last of them. -/
def together (buffer : Bytes) (yields : List Drained) : Drained where
  requests := yields.flatMap (·.requests)
  rest := (yields.getLast?.map (·.rest)).getD buffer
  fault := yields.findSome? (·.fault)

theorem together_cons (buffer : Bytes) (d : Drained) (yields : List Drained) :
    together buffer (d :: yields) =
      ⟨d.requests ++ (together d.rest yields).requests, (together d.rest yields).rest,
        d.fault <|> (together d.rest yields).fault⟩ := by
  unfold together
  rw [List.flatMap_cons, List.getLast?_cons, List.findSome?_cons]
  cases yields.getLast? <;> cases d.fault <;> rfl

/-- **Pieces yield what the whole stream yields.** The bytes behind a fault are not looked at; only
where there is none has everything been read. -/
theorem feed_together (pieces : List Bytes) {buffer : Bytes} (h : decode buffer = .incomplete) :
    (together buffer (feed buffer pieces)).requests = (drain (buffer ++ pieces.flatten)).requests ∧
      (together buffer (feed buffer pieces)).fault = (drain (buffer ++ pieces.flatten)).fault ∧
      ∃ unread, (drain (buffer ++ pieces.flatten)).rest =
          (together buffer (feed buffer pieces)).rest ++ unread ∧
        ((together buffer (feed buffer pieces)).fault = none → unread = []) := by
  induction pieces generalizing buffer with
  | nil =>
      rw [List.flatten_nil, List.append_nil, drain_incomplete h]
      exact ⟨rfl, rfl, [], (List.append_nil _).symm, fun _ => rfl⟩
  | cons piece pieces ih =>
      rw [List.flatten_cons, ← List.append_assoc, drain_append, feed, together_cons]
      have hrest := decode_rest (buffer ++ piece)
      cases hfault : (drain (buffer ++ piece)).fault with
      | some fault =>
          simp only [Drained.extend, hfault, Option.isSome_some, if_true]
          refine ⟨by simp [together], rfl, pieces.flatten, rfl, ?_⟩
          simp
      | none =>
          rw [hfault] at hrest
          obtain ⟨hrequests, hfaults, unread, hunread, hread⟩ := ih hrest
          simp only [Drained.extend, hfault, Option.isSome_none, Bool.false_eq_true, if_false]
          exact ⟨congrArg _ hrequests, hfaults, unread, hunread, hread⟩

/-- **How a stream is cut does not matter.** Two ways of cutting one stream yield the same requests
with the same counts and the same first fault, and without a fault the same tail; the bytes of the
requests and the tail make up what was read of the stream, which is all of it if there is no
fault. -/
theorem feed_cut {pieces pieces' : List Bytes} (h : pieces.flatten = pieces'.flatten) :
    let d := together [] (feed [] pieces)
    let d' := together [] (feed [] pieces')
    d.requests = d'.requests ∧ d.fault = d'.fault ∧ (d.fault = none → d.rest = d'.rest) ∧
      ∃ (spans : List Bytes) (unread : Bytes),
        pieces.flatten = spans.flatten ++ d.rest ++ unread ∧ (d.fault = none → unread = []) ∧
        List.Forall₂ (fun span request => span.length = request.2 ∧
          decode span = .complete request.1 request.2) spans d.requests := by
  obtain ⟨hrequests, hfault, unread, hunread, hread⟩ := feed_together pieces decode_nil
  obtain ⟨hrequests', hfault', unread', hunread', hread'⟩ := feed_together pieces' decode_nil
  obtain ⟨spans, hspans, hall⟩ := drain_spans ([] ++ pieces.flatten)
  rw [← h] at hrequests' hfault' hunread'
  refine ⟨hrequests.trans hrequests'.symm, hfault.trans hfault'.symm, fun hnone => ?_,
    spans, unread, ?_, hread, hrequests ▸ hall⟩
  · have hnone' := hfault'.trans (hfault.symm.trans hnone)
    rw [hread hnone, List.append_nil] at hunread
    rw [hread' hnone', List.append_nil] at hunread'
    exact hunread.symm.trans hunread'
  · rw [List.append_assoc, ← hunread]
    exact hspans

/-- A request cut between CR and LF, and one cut inside an argument that holds a CRLF itself. -/
theorem feed_cut_inside_crlf :
    let pieces : List Bytes :=
      [[42, 49, 13], [10, 36, 52, 13, 10, 13, 10], [], [36, 80, 13, 10, 42]]
    let pieces' : List Bytes := [[42, 49, 13, 10, 36, 52, 13, 10, 13, 10, 36, 80, 13, 10, 42]]
    pieces.flatten = pieces'.flatten ∧
      (together [] (feed [] pieces)).requests = [([[13, 10, 36, 80]], 14)] ∧
      (together [] (feed [] pieces)).requests = (together [] (feed [] pieces')).requests ∧
      (together [] (feed [] pieces)).rest = (together [] (feed [] pieces')).rest := by
  have h := @feed_cut [[42, 49, 13], [10, 36, 52, 13, 10, 13, 10], [], [36, 80, 13, 10, 42]]
    [[42, 49, 13, 10, 36, 52, 13, 10, 13, 10, 36, 80, 13, 10, 42]] rfl
  exact ⟨rfl, by decide, h.1, h.2.2.1 (by decide)⟩

end RespGateway.Request
