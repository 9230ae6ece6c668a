import RespGateway.Connection.Writer

/-!
# What a writer carries

A writer carries the items that were put in its outbox: some have reached the client,
some stand in its buffer, some wait. `Carries w items` says so for every phase of the
writer, and that it takes nothing after a last item. It holds of a new writer, and
neither a step of the writer nor what others do to its outbox breaks it.

A writer that has stopped has sent its items up to the first last one, which is all of
them if none is last (`Carries.sent_of_stopped`). A writer that waits on an empty outbox
has sent everything (`Carries.sent_of_waiting`).
-/

namespace RespGateway

/-- The wire form of items, one after another. -/
def wire (items : List Outgoing) : Bytes := items.flatMap (·.content.encode)

/-- Items up to the first last one and with it. -/
def untilLast : List Outgoing → List Outgoing
  | [] => []
  | item :: items => if item.isLast then [item] else item :: untilLast items

theorem wire_append (items items' : List Outgoing) :
    wire (items ++ items') = wire items ++ wire items' := List.flatMap_append

theorem wire_singleton (item : Outgoing) : wire [item] = item.content.encode := by
  simp [wire]

theorem untilLast_append {items : List Outgoing} (h : ∀ item ∈ items, item.isLast = false)
    (items' : List Outgoing) : untilLast (items ++ items') = items ++ untilLast items' := by
  induction items with
  | nil => rfl
  | cons item items ih =>
      rw [List.cons_append, untilLast, if_neg (by simp [h item (List.mem_cons_self ..)])]
      rw [ih fun item' hmem => h item' (List.mem_cons_of_mem _ hmem), List.cons_append]

theorem untilLast_of_none {items : List Outgoing} (h : ∀ item ∈ items, item.isLast = false) :
    untilLast items = items := by
  simpa [untilLast] using untilLast_append h []

theorem untilLast_append_of_last {items : List Outgoing} (h : ∃ item ∈ items, item.isLast = true)
    (items' : List Outgoing) : untilLast (items ++ items') = untilLast items := by
  induction items with
  | nil => simp at h
  | cons item items ih =>
      rw [List.cons_append, untilLast, untilLast]
      by_cases hitem : item.isLast = true
      · rw [if_pos hitem, if_pos hitem]
      · rw [if_neg hitem, if_neg hitem]
        obtain ⟨item', hmem, hlast⟩ := h
        rcases List.mem_cons.mp hmem with rfl | hmem
        · exact absurd hlast hitem
        · rw [ih ⟨item', hmem, hlast⟩]

theorem prefix_untilLast (items : List Outgoing) : untilLast items <+: items := by
  induction items with
  | nil => exact List.prefix_rfl
  | cons item items ih =>
      rw [untilLast]
      split
      · exact ⟨items, rfl⟩
      · exact List.prefix_cons_inj item |>.mpr ih

namespace Writer

/-- The items that a writer has written: first those sent, then those in its buffer. -/
def Wrote (w : Writer) (done : List Outgoing) : Prop :=
  ∃ flushed held, done = flushed ++ held ∧ w.sent = wire flushed ∧ w.buffered = wire held

/-- A writer carries the items that were put in its outbox. -/
def Carries (w : Writer) (items : List Outgoing) : Prop :=
  match w.phase with
  | .waiting =>
    ∃ done, items = done ++ w.outbox.waiting ∧ (∀ item ∈ done, item.isLast = false) ∧
      w.Wrote done ∧ w.outbox.isOpen = true ∧ (w.outbox.waiting = [] → w.buffered = [])
  | .wrote last =>
    ∃ done item, items = done ++ item :: w.outbox.waiting ∧
      (∀ item ∈ done, item.isLast = false) ∧ item.isLast = last ∧ w.Wrote (done ++ [item]) ∧
      w.outbox.isOpen = true
  | .closing =>
    w.Wrote (untilLast items) ∧ w.outbox.isOpen = true ∧
      ((∃ item ∈ items, item.isLast = true) ∨ w.hasSenders = false)
  | .stopped =>
    w.sent = wire (untilLast items) ∧ w.buffered = [] ∧ w.outbox.waiting = [] ∧
      w.outbox.isOpen = false ∧ ((∃ item ∈ items, item.isLast = true) ∨ w.hasSenders = false)

theorem carries_init (session : UInt64) : (ofSession session).Carries [] :=
  ⟨[], rfl, by simp, ⟨[], [], rfl, rfl, rfl⟩, rfl, fun _ => rfl⟩

theorem Wrote.write {w : Writer} {done : List Outgoing} (h : w.Wrote done) (item : Outgoing)
    (o : Outbox) : (w.write item o).Wrote (done ++ [item]) := by
  obtain ⟨flushed, held, rfl, hsent, hbuffered⟩ := h
  refine ⟨flushed, held ++ [item], by simp, hsent, ?_⟩
  simp only [Writer.write, hbuffered, wire_append, wire_singleton]

theorem Wrote.flush {w : Writer} {done : List Outgoing} (h : w.Wrote done) :
    w.flush.sent = wire done := by
  obtain ⟨flushed, held, rfl, hsent, hbuffered⟩ := h
  simp only [Writer.flush, hsent, hbuffered, wire_append]

/-- **A step of the writer loses nothing, doubles nothing and changes no order.** -/
theorem Carries.step {w w' : Writer} {items : List Outgoing} (h : w.Carries items)
    (hstep : w.step? = some w') : w'.Carries items := by
  unfold Writer.step? at hstep
  unfold Carries at h
  cases hphase : w.phase with
  | waiting =>
      simp only [hphase] at h hstep
      obtain ⟨done, rfl, hdone, hwrote, hopen, -⟩ := h
      cases hwaiting : w.outbox.waiting with
      | nil =>
          simp only [Outbox.take?, hwaiting] at hstep
          split at hstep
          · cases hstep
          · -- the outbox was let go of, and none of the items is a last one
            rename_i hsenders
            cases hstep
            rw [List.append_nil]
            refine ⟨?_, hopen, Or.inr (by simpa using hsenders)⟩
            rw [untilLast_of_none hdone]
            exact hwrote
      | cons item waiting =>
          simp only [Outbox.take?, hwaiting] at hstep
          cases hstep
          exact ⟨done, item, rfl, hdone, rfl, hwrote.write item _, hopen⟩
  | wrote last =>
      simp only [hphase] at h hstep
      obtain ⟨done, item, rfl, hdone, hitem, hwrote, hopen⟩ := h
      cases hstep
      cases last with
      | true =>
          -- what waits behind a last item is never written
          have huntil : untilLast (done ++ item :: w.outbox.waiting) = done ++ [item] := by
            rw [untilLast_append hdone, untilLast, if_pos hitem]
          refine ⟨?_, hopen, Or.inl ⟨item, by simp, hitem⟩⟩
          rw [huntil]
          exact ⟨done ++ [item], [], by simp, hwrote.flush, rfl⟩
      | false =>
          have hnone : ∀ item' ∈ done ++ [item], item'.isLast = false := by
            intro item' hmem
            rcases List.mem_append.mp hmem with hmem | hmem
            · exact hdone item' hmem
            · rw [List.mem_singleton.mp hmem]
              exact hitem
          -- the buffer is flushed before the writer waits, and only then
          cases hwaiting : w.outbox.waiting with
          | nil =>
              simp only [List.isEmpty_nil, Bool.or_true, if_true]
              refine ⟨done ++ [item], by simp [Writer.flush, hwaiting], hnone, ?_, hopen,
                fun _ => rfl⟩
              exact ⟨done ++ [item], [], by simp, hwrote.flush, rfl⟩
          | cons next waiting =>
              simp only [List.isEmpty_cons, Bool.or_false, Bool.false_eq_true, if_false]
              refine ⟨done ++ [item], by simp [hwaiting], hnone, hwrote, hopen, ?_⟩
              intro hnil
              simp [hwaiting] at hnil
  | closing =>
      simp only [hphase] at h hstep
      obtain ⟨hwrote, -, hend⟩ := h
      cases hstep
      exact ⟨hwrote.flush, rfl, rfl, rfl, hend⟩
  | stopped =>
      simp only [hphase] at hstep
      cases hstep

/-- Something that is put in goes behind the other items, or is dropped where the writer has taken
a last one. -/
theorem Carries.offer {w : Writer} {items : List Outgoing} (h : w.Carries items)
    (hsenders : w.hasSenders = true) (item : Outgoing) :
    (w.offer item).Carries (items ++ [item]) := by
  have hopened : w.outbox.isOpen = true →
      w.outbox.offer item = { w.outbox with waiting := w.outbox.waiting ++ [item] } := by
    intro hopen
    simp [Outbox.offer, Outbox.push, hopen]
  have hlast : (∃ item ∈ items, item.isLast = true) ∨ w.hasSenders = false →
      untilLast (items ++ [item]) = untilLast items ∧ ∃ i ∈ items ++ [item], i.isLast = true := by
    intro hend
    rcases hend with ⟨i, hi, hil⟩ | hno
    · exact ⟨untilLast_append_of_last ⟨i, hi, hil⟩ _, i, List.mem_append_left _ hi, hil⟩
    · rw [hsenders] at hno
      cases hno
  unfold Carries at h ⊢
  simp only [Writer.offer]
  cases hphase : w.phase with
  | waiting =>
      simp only [hphase] at h ⊢
      obtain ⟨done, rfl, hdone, hwrote, hopen, -⟩ := h
      rw [hopened hopen]
      exact ⟨done, by simp, hdone, hwrote, hopen, by simp⟩
  | wrote last =>
      simp only [hphase] at h ⊢
      obtain ⟨done, i, rfl, hdone, hi, hwrote, hopen⟩ := h
      rw [hopened hopen]
      exact ⟨done, i, by simp, hdone, hi, hwrote, hopen⟩
  | closing =>
      simp only [hphase] at h ⊢
      obtain ⟨hwrote, hopen, hend⟩ := h
      rw [hopened hopen, (hlast hend).1]
      exact ⟨hwrote, hopen, Or.inl (hlast hend).2⟩
  | stopped =>
      simp only [hphase] at h ⊢
      obtain ⟨hsent, hbuffered, hwaiting, hclosed, hend⟩ := h
      -- a closed outbox drops what is put in
      have hsame : w.outbox.offer item = w.outbox := by
        simp [Outbox.offer, Outbox.push, hclosed]
      rw [hsame, (hlast hend).1]
      exact ⟨hsent, hbuffered, hwaiting, hclosed, Or.inl (hlast hend).2⟩

theorem Carries.release {w : Writer} {items : List Outgoing} (h : w.Carries items) :
    w.release.Carries items := by
  unfold Carries at h ⊢
  simp only [Writer.release]
  cases hphase : w.phase with
  | waiting =>
      simp only [hphase] at h ⊢
      obtain ⟨done, hitems, hdone, hwrote, hopen, hempty⟩ := h
      exact ⟨done, hitems, hdone, hwrote, hopen, hempty⟩
  | wrote last =>
      simp only [hphase] at h ⊢
      obtain ⟨done, item, hitems, hdone, hitem, hwrote, hopen⟩ := h
      exact ⟨done, item, hitems, hdone, hitem, hwrote, hopen⟩
  | closing =>
      simp only [hphase] at h ⊢
      exact ⟨h.1, h.2.1, Or.inr trivial⟩
  | stopped =>
      simp only [hphase] at h ⊢
      exact ⟨h.1, h.2.1, h.2.2.1, h.2.2.2.1, Or.inr trivial⟩

/-- A step of a writer lets go of no outbox and loses no client. -/
theorem step_same {w w' : Writer} (h : w.step? = some w') :
    w'.hasSenders = w.hasSenders ∧ w'.isLost = w.isLost := by
  unfold Writer.step? at h
  cases hphase : w.phase with
  | waiting =>
      simp only [hphase] at h
      split at h
      · cases h
        exact ⟨rfl, rfl⟩
      · split at h
        · cases h
        · cases h
          exact ⟨rfl, rfl⟩
  | wrote last =>
      simp only [hphase] at h
      cases h
      dsimp only
      split <;> exact ⟨rfl, rfl⟩
  | closing =>
      simp only [hphase] at h
      cases h
      exact ⟨rfl, rfl⟩
  | stopped =>
      simp only [hphase] at h
      cases h

theorem hasSenders_step {w w' : Writer} (h : w.step? = some w') : w'.hasSenders = w.hasSenders :=
  (step_same h).1

theorem isLost_step {w w' : Writer} (h : w.step? = some w') : w'.isLost = w.isLost :=
  (step_same h).2

/-! ## What has reached the client -/

theorem Wrote.sent_partly {w : Writer} {done : List Outgoing} (h : w.Wrote done) :
    ∃ flushed, flushed <+: done ∧ w.sent = wire flushed := by
  obtain ⟨flushed, held, rfl, hsent, -⟩ := h
  exact ⟨flushed, List.prefix_append _ _, hsent⟩

/-- What is written is either on its way or still in the buffer. -/
theorem Wrote.sent_append {w : Writer} {done : List Outgoing} (h : w.Wrote done) :
    w.sent ++ w.buffered = wire done := by
  obtain ⟨flushed, held, rfl, hsent, hbuffered⟩ := h
  rw [hsent, hbuffered, wire_append]

/-- At any time some of the items have been written, from the first on and none after the first last
one. Before the writer takes the next one, those that wait are behind them. -/
theorem Carries.wrote {w : Writer} {items : List Outgoing} (h : w.Carries items) :
    ∃ done, done <+: untilLast items ∧ w.Wrote done ∧
      (w.phase = .waiting → items = done ++ w.outbox.waiting ∧
        ∀ item ∈ done, item.isLast = false) := by
  unfold Carries at h
  cases hphase : w.phase with
  | waiting =>
      simp only [hphase] at h
      obtain ⟨done, rfl, hdone, hwrote, -, -⟩ := h
      refine ⟨done, ?_, hwrote, fun _ => ⟨rfl, hdone⟩⟩
      rw [untilLast_append hdone]
      exact List.prefix_append _ _
  | wrote last =>
      simp only [hphase] at h
      obtain ⟨done, item, rfl, hdone, hitem, hwrote, -⟩ := h
      refine ⟨done ++ [item], ?_, hwrote, nofun⟩
      rw [untilLast_append hdone, untilLast]
      refine List.prefix_append_right_inj done |>.mpr ?_
      split
      · exact List.prefix_rfl
      · exact ⟨untilLast w.outbox.waiting, rfl⟩
  | closing =>
      simp only [hphase] at h
      exact ⟨untilLast items, List.prefix_rfl, h.1, nofun⟩
  | stopped =>
      simp only [hphase] at h
      obtain ⟨hsent, hbuffered, -⟩ := h
      exact ⟨untilLast items, List.prefix_rfl,
        ⟨untilLast items, [], (List.append_nil _).symm, hsent, hbuffered⟩, nofun⟩

/-- At any time the client has received some of the items whole. -/
theorem Carries.sent_partly {w : Writer} {items : List Outgoing} (h : w.Carries items) :
    ∃ flushed, flushed <+: untilLast items ∧ w.sent = wire flushed := by
  obtain ⟨done, hdone, hwrote, -⟩ := h.wrote
  obtain ⟨flushed, hflushed, hsent⟩ := hwrote.sent_partly
  exact ⟨flushed, hflushed.trans hdone, hsent⟩

theorem Carries.sent_of_stopped {w : Writer} {items : List Outgoing} (h : w.Carries items)
    (hstopped : w.phase = .stopped) : w.sent = wire (untilLast items) := by
  unfold Carries at h
  rw [hstopped] at h
  exact h.1

/-- A writer stops before its outbox is let go of only after a last item. -/
theorem Carries.last_of_stopped {w : Writer} {items : List Outgoing} (h : w.Carries items)
    (hstopped : w.phase = .stopped) (hsenders : w.hasSenders = true) :
    ∃ item ∈ items, item.isLast = true := by
  unfold Carries at h
  rw [hstopped] at h
  rcases h.2.2.2.2 with hlast | hno
  · exact hlast
  · rw [hsenders] at hno
    cases hno

theorem Carries.sent_of_waiting {w : Writer} {items : List Outgoing} (h : w.Carries items)
    (hwaiting : w.phase = .waiting) (hempty : w.outbox.waiting = []) :
    w.sent = wire items ∧ ∀ item ∈ items, item.isLast = false := by
  unfold Carries at h
  rw [hwaiting] at h
  obtain ⟨done, rfl, hdone, hwrote, -, hflushed⟩ := h
  obtain ⟨flushed, held, rfl, hsent, hbuffered⟩ := hwrote
  rw [hempty, List.append_nil]
  refine ⟨?_, hdone⟩
  rw [wire_append, ← hbuffered, hflushed hempty, List.append_nil, hsent]

/-- A writer that has stopped, or waits and has nothing to take, holds nothing back. -/
theorem Carries.buffered_of_idle {w : Writer} {items : List Outgoing} (h : w.Carries items)
    (hidle : w.phase = .stopped ∨ w.phase = .waiting ∧ w.outbox.waiting = []) :
    w.buffered = [] := by
  unfold Carries at h
  rcases hidle with hstopped | ⟨hwaiting, hempty⟩
  · rw [hstopped] at h
    exact h.2.1
  · rw [hwaiting] at h
    obtain ⟨-, -, -, -, -, hflushed⟩ := h
    exact hflushed hempty

/-- A writer that can do nothing has stopped, or waits for what others will put in. -/
theorem stuck {w : Writer} (h : w.step? = none) :
    w.phase = .stopped ∨ w.phase = .waiting ∧ w.outbox.waiting = [] ∧ w.hasSenders = true := by
  unfold Writer.step? at h
  cases hphase : w.phase with
  | waiting =>
      right
      cases hwaiting : w.outbox.waiting with
      | nil => simpa [hphase, Outbox.take?, hwaiting] using h
      | cons item waiting => simp [hphase, Outbox.take?, hwaiting] at h
  | wrote last => simp [hphase] at h
  | closing => simp [hphase] at h
  | stopped => exact Or.inl rfl

end Writer

end RespGateway
