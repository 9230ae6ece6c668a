import RespGateway.Proofs.Accounts

/-!
# Writers at work

Between two steps of a writer others put items into its outbox, come to hold the outbox
or let go of it, and the buffer may lose bytes to the client before it is flushed, as it
does when it is full. A run is a list of such `Turn`s, in any order.

Bytes that leave early make no difference but that they are there early (`Ahead`): every
run is one in which the writer carries its items (`Carries`), with some of the buffer
gone ahead. What holds of every run is `Delivers`: a writer that waits on an empty outbox
has sent all that it was given, and one that stops has sent its items up to the first
last one before it shuts down. Left to itself it always gets so far.
-/

namespace RespGateway

/-! ## What the client is sent -/

/-- What the client is sent for an item. -/
inductive Outgoing.Shows : Outgoing → Bytes → Prop where
  | answered {x : Exchange} {r : Reply} : x.response = some r → Shows (.reply x) r.encode
  /-- An exchange without a reply is answered all the same. -/
  | unanswered {x : Exchange} : x.response = none →
      Shows (.reply x) (Text.Utf8.ofString "-ERR Operation error!\r\n")
  | refused (r : Reply) : Shows (.rejection r) r.encode

/-- Bytes that are one reply for each item, one behind the other. -/
def Answer (items : List Outgoing) (bytes : Bytes) : Prop :=
  ∃ replies, List.Forall₂ Outgoing.Shows items replies ∧ bytes = replies.flatten

theorem Outgoing.shows_content (item : Outgoing) : item.Shows item.content.encode := by
  cases item with
  | rejection r => exact .refused r
  | reply x =>
      cases hresponse : x.response with
      | some r =>
          have hcontent : (Outgoing.reply x).content = r := by simp [Outgoing.content, hresponse]
          rw [hcontent]
          exact .answered hresponse
      | none =>
          have herror : (Outgoing.reply x).content.encode =
              Text.Utf8.ofString "-ERR Operation error!\r\n" := by
            rw [Outgoing.content, hresponse]
            decide
          rw [herror]
          exact .unanswered hresponse

theorem answer_wire (items : List Outgoing) : Answer items (wire items) := by
  refine ⟨items.map fun item => item.content.encode, ?_, by rw [wire, List.flatMap_def]⟩
  induction items with
  | nil => exact .nil
  | cons item items ih => exact .cons item.shows_content ih

namespace Writer

/-! ## Bytes that leave early -/

/-- Some bytes leave the buffer for the client before it is flushed. -/
def spill (w : Writer) (count : Nat) : Writer :=
  { w with sent := w.sent ++ w.buffered.take count, buffered := w.buffered.drop count }

/-- A writer of which the client has some of the buffer already. -/
inductive Ahead (w : Writer) : Writer → Prop where
  | of {gone held : Bytes} : w.buffered = gone ++ held →
      Ahead w { w with sent := w.sent ++ gone, buffered := held }

namespace Ahead

variable {w v v' : Writer}

theorem refl (w : Writer) : w.Ahead w := by
  have h : w.Ahead { w with sent := w.sent ++ [], buffered := w.buffered } := .of rfl
  rwa [List.append_nil] at h

theorem spill (h : w.Ahead v) (count : Nat) : w.Ahead (v.spill count) := by
  cases h with
  | @of gone held hbuffered =>
      have hsplit : w.buffered = (gone ++ held.take count) ++ held.drop count := by
        rw [List.append_assoc, List.take_append_drop, hbuffered]
      have hahead : w.Ahead _ := .of hsplit
      rwa [← List.append_assoc] at hahead

theorem offer (h : w.Ahead v) (item : Outgoing) : (w.offer item).Ahead (v.offer item) := by
  cases h with
  | of hbuffered => exact .of (w := w.offer item) hbuffered

theorem release (h : w.Ahead v) : w.release.Ahead v.release := by
  cases h with
  | of hbuffered => exact .of (w := w.release) hbuffered

/-- A flush sends what has not gone ahead. -/
theorem flush_eq (h : w.Ahead v) : v.flush = w.flush := by
  cases h with
  | of hbuffered => simp only [Writer.flush, hbuffered, List.append_assoc]

theorem write (h : w.Ahead v) (item : Outgoing) (outbox : Outbox) :
    (w.write item outbox).Ahead (v.write item outbox) := by
  cases h with
  | of hbuffered =>
      refine .of (w := w.write item outbox) ?_
      simp only [Writer.write, hbuffered, List.append_assoc]

theorem withPhase (h : w.Ahead v) (phase : Phase) :
    Ahead { w with phase } { v with phase } := by
  cases h with
  | of hbuffered => exact .of (w := { w with phase }) hbuffered

theorem phase_eq (h : w.Ahead v) : v.phase = w.phase := by cases h; rfl

theorem outbox_eq (h : w.Ahead v) : v.outbox = w.outbox := by cases h; rfl

theorem hasSenders_eq (h : w.Ahead v) : v.hasSenders = w.hasSenders := by cases h; rfl

/-- Where bytes have gone ahead the writer goes the same step. -/
theorem step (h : w.Ahead v) (hstep : v.step? = some v') :
    ∃ w', w.step? = some w' ∧ w'.Ahead v' := by
  have hphase := h.phase_eq
  have houtbox := h.outbox_eq
  have hsenders := h.hasSenders_eq
  unfold Writer.step? at hstep ⊢
  cases hw : w.phase with
  | waiting =>
      simp only [hphase, hw] at hstep ⊢
      cases htake : w.outbox.take? with
      | some next =>
          rw [← houtbox] at htake
          simp only [htake] at hstep
          cases hstep
          exact ⟨_, rfl, h.write _ _⟩
      | none =>
          rw [← houtbox] at htake
          simp only [htake] at hstep
          by_cases hheld : v.hasSenders = true
          · rw [if_pos hheld] at hstep
            cases hstep
          · rw [if_neg hheld] at hstep
            rw [hsenders] at hheld
            rw [if_neg hheld]
            cases hstep
            exact ⟨_, rfl, h.withPhase _⟩
  | wrote last =>
      simp only [hphase, hw] at hstep ⊢
      refine ⟨_, rfl, ?_⟩
      rw [houtbox] at hstep
      cases hstep
      by_cases hnow : (last || w.outbox.waiting.isEmpty) = true
      · rw [if_pos hnow, if_pos hnow, h.flush_eq]
        exact .refl _
      · rw [if_neg hnow, if_neg hnow]
        exact h.withPhase _
  | closing =>
      simp only [hphase, hw] at hstep ⊢
      refine ⟨_, rfl, ?_⟩
      cases hstep
      rw [h.flush_eq, houtbox]
      exact .refl _
  | stopped =>
      simp only [hphase, hw] at hstep
      cases hstep

/-- Where nothing is held back nothing has gone ahead. -/
theorem eq_of_flushed (h : w.Ahead v) (hflushed : w.buffered = []) : v = w := by
  cases h with
  | @of gone held hbuffered =>
      rw [hflushed] at hbuffered
      obtain ⟨rfl, rfl⟩ := List.append_eq_nil_iff.mp hbuffered.symm
      rw [List.append_nil, ← hflushed]

end Ahead

/-! ## Runs -/

/-- Something that happens while a writer is at work. -/
inductive Turn where
  /-- The writer goes a step on. -/
  | step
  /-- Somebody puts something in the outbox. -/
  | offer (item : Outgoing)
  /-- One more comes to hold the outbox. -/
  | join
  /-- One of those who hold the outbox lets go of it. -/
  | leave
  /-- Some bytes leave the buffer before it is flushed. -/
  | spill (count : Nat)

/-- A writer at work. -/
structure Desk where
  writer : Writer
  /-- How many hold the outbox and may put something in. -/
  senders : Nat
  /-- Where the writer counts what it writes. -/
  tally : Tally

/-- The writer of a new session, whose outbox has one holder. -/
def Desk.start (session : UInt64) (tally : Tally) : Desk := ⟨ofSession session, 1, tally⟩

/-- Carries out a turn, if it is possible. Only who holds the outbox can put something in, or hand
it on to one more. -/
def Desk.turn? (d : Desk) : Turn → Option Desk
  | .step => d.writer.step?.map fun writer =>
      { d with writer, tally := d.tally.bytesWritten (writer.written - d.writer.written) }
  | .offer item => if 0 < d.senders then some { d with writer := d.writer.offer item } else none
  | .join => if 0 < d.senders then some { d with senders := d.senders + 1 } else none
  | .leave =>
    match d.senders with
    | 0 => none
    | 1 => some { d with writer := d.writer.release, senders := 0 }
    | n + 2 => some { d with senders := n + 1 }
  | .spill count => some { d with writer := d.writer.spill count }

/-- What becomes of a writer in a run. -/
def Desk.follow? (d : Desk) (run : List Turn) : Option Desk := run.foldlM turn? d

/-- What is put in the outbox in a run, in this order. -/
def offered (run : List Turn) : List Outgoing :=
  run.filterMap fun
    | .offer item => some item
    | _ => none

/-! ## What holds in every run -/

theorem bytesWritten_add (t : Tally) (m n : Nat) :
    (t.bytesWritten m).bytesWritten n = t.bytesWritten (m + n) := by
  simp only [Tally.bytesWritten, UInt64.ofNat_add, UInt64.add_assoc]

/-- A writer that takes nothing any more has flushed its buffer, whether it has written a last item
or was left alone. -/
theorem flushed_of_closing {w w' : Writer} {items : List Outgoing} (h : w.Carries items)
    (hstep : w.step? = some w') (hclosing : w'.phase = .closing) : w'.buffered = [] := by
  unfold Writer.step? at hstep
  unfold Carries at h
  cases hphase : w.phase with
  | waiting =>
      simp only [hphase] at h hstep
      obtain ⟨done, -, -, -, -, hempty⟩ := h
      cases hwaiting : w.outbox.waiting with
      | nil =>
          simp only [Outbox.take?, hwaiting] at hstep
          split at hstep
          · cases hstep
          · cases hstep
            exact hempty hwaiting
      | cons item waiting =>
          simp only [Outbox.take?, hwaiting] at hstep
          cases hstep
          simp [Writer.write] at hclosing
  | wrote last =>
      simp only [hphase] at hstep
      cases hstep
      cases last with
      | true => rfl
      | false => simp at hclosing
  | closing =>
      simp only [hphase] at hstep
      cases hstep
      rfl
  | stopped =>
      simp only [hphase] at hstep
      cases hstep

/-- Where a writer stands with the items that were put in its outbox; `tally` is where its tally
began. -/
structure AtWork (tally : Tally) (items : List Outgoing) (d : Desk) : Prop where
  carried : ∃ w : Writer, w.Carries items ∧ w.Ahead d.writer ∧
    (w.phase = .closing → w.buffered = [])
  senders : d.writer.hasSenders = true ↔ 0 < d.senders
  written : d.writer.written = d.writer.output
  tally : d.tally = tally.bytesWritten d.writer.output

theorem atWork_start (session : UInt64) (tally : Tally) :
    AtWork tally [] (Desk.start session tally) where
  carried := ⟨ofSession session, carries_init session, .refl _, fun h => by cases h⟩
  senders := ⟨fun _ => Nat.one_pos, fun _ => rfl⟩
  written := rfl
  tally := by
    have hzero : tally.written + UInt64.ofNat 0 = tally.written := UInt64.add_zero _
    change tally = { tally with written := tally.written + UInt64.ofNat 0 }
    rw [hzero]

namespace AtWork

variable {tally : Tally} {items : List Outgoing} {d d' : Desk}

theorem step (h : AtWork tally items d) {writer : Writer} (hstep : d.writer.step? = some writer) :
    AtWork tally items
      { d with writer, tally := d.tally.bytesWritten (writer.written - d.writer.written) } := by
  obtain ⟨w, hcarries, hahead, hclosing⟩ := h.carried
  obtain ⟨w', hw', hahead'⟩ := hahead.step hstep
  obtain ⟨-, hle, hgrown⟩ := written_step hstep
  exact
    { carried := ⟨w', hcarries.step hw', hahead', flushed_of_closing hcarries hw'⟩
      senders := by
        rw [← h.senders, ← hasSenders_step hstep]
      written := by
        have := h.written
        dsimp only
        omega
      tally := by
        dsimp only
        rw [h.tally, bytesWritten_add, ← hgrown] }

theorem offer (h : AtWork tally items d) (hsenders : 0 < d.senders) (item : Outgoing) :
    AtWork tally (items ++ [item]) { d with writer := d.writer.offer item } := by
  obtain ⟨w, hcarries, hahead, hclosing⟩ := h.carried
  have hheld : w.hasSenders = true := by
    rw [← hahead.hasSenders_eq]
    exact h.senders.mpr hsenders
  exact
    { carried := ⟨w.offer item, hcarries.offer hheld item, hahead.offer item, hclosing⟩
      senders := h.senders
      written := h.written
      tally := h.tally }

theorem spill (h : AtWork tally items d) (count : Nat) :
    AtWork tally items { d with writer := d.writer.spill count } := by
  obtain ⟨w, hcarries, hahead, hclosing⟩ := h.carried
  have houtput : (d.writer.spill count).output = d.writer.output := by
    simp only [Writer.output, Writer.spill, List.length_append, List.length_take,
      List.length_drop]
    omega
  exact
    { carried := ⟨w, hcarries, hahead.spill count, hclosing⟩
      senders := h.senders
      written := h.written.trans houtput.symm
      tally := by
        dsimp only
        rw [houtput]
        exact h.tally }

theorem leave (h : AtWork tally items d) (hturn : d.turn? .leave = some d') :
    AtWork tally items d' := by
  obtain ⟨w, hcarries, hahead, hclosing⟩ := h.carried
  rw [Desk.turn?] at hturn
  split at hturn
  · cases hturn
  · -- the last holder is gone, and with it whoever could put something in
    cases hturn
    exact ⟨⟨w.release, hcarries.release, hahead.release, hclosing⟩,
      ⟨fun hheld => (Bool.false_ne_true hheld).elim, fun hno => (Nat.lt_irrefl 0 hno).elim⟩,
      h.written, h.tally⟩
  · rename_i n hsenders
    cases hturn
    have hheld : d.writer.hasSenders = true := h.senders.mpr (by omega)
    exact ⟨h.carried, ⟨fun _ => Nat.succ_pos n, fun _ => hheld⟩, h.written, h.tally⟩

theorem turn (h : AtWork tally items d) {t : Turn} (hturn : d.turn? t = some d') :
    AtWork tally (items ++ offered [t]) d' := by
  cases t with
  | step =>
      obtain ⟨writer, hstep, rfl⟩ := Option.map_eq_some_iff.mp hturn
      rw [show offered [.step] = [] from rfl, List.append_nil]
      exact h.step hstep
  | offer item =>
      rw [Desk.turn?] at hturn
      split at hturn
      · rename_i hsenders
        cases hturn
        exact h.offer hsenders item
      · cases hturn
  | join =>
      rw [Desk.turn?] at hturn
      rw [show offered [.join] = [] from rfl, List.append_nil]
      split at hturn
      · rename_i hsenders
        cases hturn
        have hheld : d.writer.hasSenders = true := h.senders.mpr hsenders
        exact ⟨h.carried, ⟨fun _ => Nat.succ_pos _, fun _ => hheld⟩, h.written, h.tally⟩
      · cases hturn
  | leave =>
      rw [show offered [.leave] = [] from rfl, List.append_nil]
      exact h.leave hturn
  | spill count =>
      rw [show offered [.spill count] = [] from rfl, List.append_nil]
      cases hturn
      exact h.spill count

theorem follow (h : AtWork tally items d) {run : List Turn} (hrun : d.follow? run = some d') :
    AtWork tally (items ++ offered run) d' := by
  induction run generalizing items d with
  | nil =>
      obtain rfl : d = d' := Option.some.inj hrun
      rw [show offered [] = [] from rfl, List.append_nil]
      exact h
  | cons t run ih =>
      obtain ⟨d₁, hturn, hrest⟩ := Option.bind_eq_some_iff.mp hrun
      have hall := ih (h.turn hturn) hrest
      rw [List.append_assoc] at hall
      rwa [show offered (t :: run) = offered [t] ++ offered run from
        List.filterMap_append (l := [t])]

/-! ## What has been sent -/

theorem idle (h : AtWork tally items d) (hwaiting : d.writer.phase = .waiting)
    (hempty : d.writer.outbox.waiting = []) :
    d.writer.buffered = [] ∧ d.writer.sent = wire items := by
  obtain ⟨w, hcarries, hahead, -⟩ := h.carried
  rw [hahead.phase_eq] at hwaiting
  rw [hahead.outbox_eq] at hempty
  have hflushed : w.buffered = [] := by
    unfold Carries at hcarries
    rw [hwaiting] at hcarries
    obtain ⟨done, -, -, -, -, hflushed⟩ := hcarries
    exact hflushed hempty
  rw [hahead.eq_of_flushed hflushed]
  exact ⟨hflushed, (hcarries.sent_of_waiting hwaiting hempty).1⟩

/-- A writer that has begun to close has sent everything before it shuts its side down. -/
theorem closed (h : AtWork tally items d)
    (hphase : d.writer.phase = .closing ∨ d.writer.phase = .stopped) :
    d.writer.buffered = [] ∧ d.writer.sent = wire (untilLast items) ∧
      ((∃ item ∈ items, item.isLast = true) ∨ d.senders = 0) := by
  obtain ⟨w, hcarries, hahead, hclosing⟩ := h.carried
  rw [hahead.phase_eq] at hphase
  have hleft : w.hasSenders = false → d.senders = 0 := by
    intro hno
    rw [← hahead.hasSenders_eq] at hno
    by_contra hne
    rw [h.senders.mpr (Nat.pos_of_ne_zero hne)] at hno
    cases hno
  unfold Carries at hcarries
  rcases hphase with hphase | hphase
  · rw [hphase] at hcarries
    obtain ⟨⟨flushed, held, hdone, hsent, hbuffered⟩, -, hend⟩ := hcarries
    have hflushed := hclosing hphase
    rw [hahead.eq_of_flushed hflushed]
    refine ⟨hflushed, ?_, hend.imp_right hleft⟩
    rw [hdone, wire_append, ← hbuffered, hflushed, List.append_nil, hsent]
  · rw [hphase] at hcarries
    obtain ⟨hsent, hflushed, -, -, hend⟩ := hcarries
    rw [hahead.eq_of_flushed hflushed]
    exact ⟨hflushed, hsent, hend.imp_right hleft⟩

end AtWork

/-! ## Left to itself -/

/-- A writer can go on, or it has stopped, or it waits for others. -/
def Rests (d : Desk) : Prop :=
  d.writer.phase = .stopped ∨
    d.writer.phase = .waiting ∧ d.writer.outbox.waiting = [] ∧ 0 < d.senders

/-- Steps of its own take a writer to where it rests. -/
theorem AtWork.exists_rest {tally : Tally} {items : List Outgoing} {d : Desk}
    (h : AtWork tally items d) :
    ∃ n d', d.follow? (List.replicate n .step) = some d' ∧ Rests d' := by
  induction heffort : Server.writerEffort d.writer using Nat.strongRecOn generalizing d with
  | ind effort ih =>
      cases hstep : d.writer.step? with
      | none =>
          refine ⟨0, d, rfl, ?_⟩
          rcases stuck hstep with hstopped | ⟨hwaiting, hempty, hheld⟩
          · exact Or.inl hstopped
          · exact Or.inr ⟨hwaiting, hempty, h.senders.mp hheld⟩
      | some writer =>
          have hless := Server.writerEffort_step hstep
          rw [heffort] at hless
          obtain ⟨n, d', hrun, hrests⟩ := ih _ hless (h.step hstep) rfl
          refine ⟨n + 1, d', ?_, hrests⟩
          rw [List.replicate_succ, Desk.follow?, List.foldlM_cons]
          change (d.turn? .step).bind _ = _
          rw [Desk.turn?, hstep]
          exact hrun

/-- What a writer has done for its client when these items were put in its outbox and its tally
began as `tally`. -/
structure Delivers (tally : Tally) (items : List Outgoing) (d : Desk) : Prop where
  /-- A writer that waits on an empty outbox holds nothing back, and has sent all items. -/
  idle : d.writer.phase = .waiting → d.writer.outbox.waiting = [] →
    d.writer.buffered = [] ∧ Answer items d.writer.sent
  /-- All is flushed before the writer shuts its side down. -/
  closing : d.writer.phase = .closing →
    d.writer.buffered = [] ∧ Answer (untilLast items) d.writer.sent
  /-- A writer that has ended has sent the items up to the first last one, which is all of them if
  nobody put in a last one; that is what it has counted. -/
  stopped : d.writer.phase = .stopped →
    d.writer.buffered = [] ∧ Answer (untilLast items) d.writer.sent ∧
      d.tally = tally.bytesWritten d.writer.sent.length ∧
      ((∃ item ∈ items, item.isLast = true) ∨ d.senders = 0)
  /-- At any time it has counted what it has written, sent or not. -/
  counted : d.tally = tally.bytesWritten (d.writer.sent ++ d.writer.buffered).length
  /-- Left to itself it ends, or waits on an empty outbox. -/
  rests : ∃ n d', d.follow? (List.replicate n .step) = some d' ∧ Rests d'

/-- **A writer delivers what is put in its outbox and never sits on it**, in every run. -/
theorem run_delivers {session : UInt64} {tally : Tally} {run : List Turn} {d : Desk}
    (hrun : (Desk.start session tally).follow? run = some d) :
    Delivers tally (offered run) d := by
  have h : AtWork tally (offered run) d := (atWork_start session tally).follow hrun
  have hcounted : d.tally = tally.bytesWritten (d.writer.sent ++ d.writer.buffered).length := by
    rw [List.length_append]
    exact h.tally
  exact
    { idle := by
        intro hwaiting hempty
        obtain ⟨hflushed, hsent⟩ := h.idle hwaiting hempty
        exact ⟨hflushed, hsent ▸ answer_wire _⟩
      closing := by
        intro hclosing
        obtain ⟨hflushed, hsent, -⟩ := h.closed (Or.inl hclosing)
        exact ⟨hflushed, hsent ▸ answer_wire _⟩
      stopped := by
        intro hstopped
        obtain ⟨hflushed, hsent, hend⟩ := h.closed (Or.inr hstopped)
        rw [hflushed, List.append_nil] at hcounted
        exact ⟨hflushed, hsent ▸ answer_wire _, hcounted, hend⟩
      counted := hcounted
      rests := h.exists_rest }

/-- An exchange without a reply, a `QUIT` that comes while the first is being written, and a refusal
behind it; some bytes leave early. -/
def partingRun : List Turn :=
  [.offer (.reply ⟨.get, 1, [[107]], none⟩), .step, .spill 4, .join,
    .offer (.reply ⟨.quit, 1, [], some .ok⟩), .step, .leave, .step,
    .offer (.rejection .nil), .step, .step]

/-- The client gets an error and the answer to the `QUIT`, and no more. -/
theorem run_delivers_parting :
    ∃ d, (Desk.start 1 {}).follow? partingRun = some d ∧
      d.writer.sent = Text.Utf8.ofString "-ERR Operation error!\r\n+OK\r\n" ∧
      d.tally.written = 28 ∧ Delivers {} (offered partingRun) d :=
  ⟨_, rfl, by decide, by decide, run_delivers rfl⟩

end Writer

/-- A server lets a writer go a step on and counts what it writes as its desk does. -/
theorem Server.stepWriter?_eq (s : Server) (i senders : Nat) (c : Connection) :
    s.stepWriter? i c =
      ((Writer.Desk.mk c.writer senders s.tally).turn? .step).map fun d =>
        { s.withConnection i { c with writer := d.writer } with tally := d.tally } := by
  rw [stepWriter?, Writer.Desk.turn?, Option.map_map]
  rfl

end RespGateway
