import RespGateway.Proofs.Burst

/-!
# What the store does for commands at once

Of the commands of a burst those take effect that the store answers in time; all others end
without it (`Lands`). What the store does for a command it does part by part, and a part
counts from its `Touch` on, when it is at the table of its key. `History` says what touches
come to that are made in some order, and `Runs.advance` that an access for a command goes on
with its errand and with the history.
-/

namespace RespGateway

open Store (Part Finding Errand Tracks)

/-! ## The commands that take effect -/

/-- Whether a command is one that the store answers in time. -/
def Gateway.takesEffect (g : Gateway) (t : Taken) : Bool :=
  (g.routes.lookup t.exchange.command).isNone && t.exchange.query?.any fun q =>
    match g.backend.act t.ticket q with
    | .ends delay (.returned .store) => g.limit.all (delay < ·)
    | _ => false

/-- What the store does for a command: the parts of its query, if the command takes effect. -/
def Gateway.parts (g : Gateway) (t : Taken) : List Part :=
  match t.exchange.query? with
  | some q => if g.takesEffect t then q.parts else []
  | none => []

variable {g : Gateway} {t : Taken} {y : Exchange} {s s' : Store}

theorem inTime_iff (limit : Option Nat) (delay : Nat) :
    limit.all (delay < ·) = true ↔ InTime limit delay := by
  cases limit with
  | none => simp [InTime]
  | some n => simp [InTime]

theorem takesEffect_iff (g : Gateway) (t : Taken) :
    g.takesEffect t = true ↔ g.routes.lookup t.exchange.command = none ∧
      ∃ q delay, t.exchange.query? = some q ∧
        g.backend.act t.ticket q = .ends delay (.returned .store) ∧ InTime g.limit delay := by
  unfold Gateway.takesEffect
  rw [Bool.and_eq_true, Option.isNone_iff_eq_none]
  refine and_congr_right fun _ => ?_
  cases t.exchange.query? with
  | none => simp
  | some q =>
      simp only [Option.any_some]
      constructor
      · intro h
        split at h
        · rename_i delay hact
          exact ⟨q, delay, rfl, hact, (inTime_iff _ _).mp h⟩
        · cases h
      · rintro ⟨q', delay, hq, hact, htime⟩
        cases hq
        rw [hact]
        exact (inTime_iff _ _).mpr htime

theorem parts_of_effect {q : Cache.Query} (ht : g.takesEffect t = true)
    (hq : t.exchange.query? = some q) : g.parts t = q.parts := by
  simp only [Gateway.parts, hq, ht, if_true]

theorem parts_of_still (ht : g.takesEffect t = false) : g.parts t = [] := by
  unfold Gateway.parts
  split
  · rw [ht]
    rfl
  · rfl

/-! ## How calls end -/

theorem Ended.still {calls : List Call} (h : Ended g t.ticket t.exchange calls s y s')
    (ht : g.takesEffect t = false) : s' = s := by
  cases hroute : g.routes.lookup t.exchange.command with
  | some handler => exact (h.hit handler hroute).2.2
  | none =>
      cases hq : t.exchange.query? with
      | none => exact (h.unsupported hroute hq).2.2
      | some q =>
          obtain ⟨-, r, -, hqueried⟩ := h.queried q hroute hq
          generalize hact : g.backend.act t.ticket q = a at hqueried
          cases hqueried with
          | served htime =>
              have heffect := (takesEffect_iff g t).mpr ⟨hroute, q, _, hq, hact, htime⟩
              rw [ht] at heffect
              cases heffect
          | _ => rfl

/-- The store is left to answer in time, and then the command is one that takes effect. -/
theorem takesEffect_of_serve {moment : Moment} {x : Exchange} {q : Cache.Query}
    (h : (g.launch t.ticket t.exchange).outcome = some (moment, .serve x q)) :
    g.takesEffect t = true := by
  unfold Gateway.launch at h
  split at h
  · unfold Gateway.launchHandler at h
    split at h <;> cases h
  · rename_i hroute
    split at h
    · rename_i q' hq
      have hseen := course_seen g.limit (g.backend.act t.ticket q')
      unfold Gateway.launchQuery at h
      generalize hact : g.backend.act t.ticket q' = a at hseen h
      generalize a.course g.limit = course at hseen h
      cases hseen with
      | withheld | late | endless => cases h
      | ended ending hlimit htime =>
          -- of all that may come back in time only one thing leaves it to the store
          rcases ending with (_ | _) | _ | _
          · exact (takesEffect_iff g t).mpr ⟨hroute, q', _, hq, hact, htime⟩
          all_goals cases h
    · cases h

theorem course_of_inTime {ε α : Type} {limit : Option Nat} {delay : Nat} (h : InTime limit delay)
    (ending : Ending ε α) : (Attempt.ends delay ending).course limit = .ended delay ending := by
  cases limit with
  | none => rfl
  | some n =>
      have hless := h n rfl
      cases n with
      | zero => omega
      | succ n => exact if_pos hless

/-- The call for a command that takes effect leaves it to the store. -/
theorem serve_of_takesEffect (ht : g.takesEffect t = true) :
    ∃ moment q, t.exchange.query? = some q ∧
      (g.launch t.ticket t.exchange).outcome = some (moment, .serve t.exchange q) := by
  obtain ⟨hroute, q, delay, hq, hact, htime⟩ := (takesEffect_iff g t).mp ht
  refine ⟨⟨delay, 1⟩, q, hq, ?_⟩
  simp only [Gateway.launch, hroute, hq, Gateway.launchQuery, hact, course_of_inTime htime]
  rfl

/-- What becomes of a command when its call ends: the store goes to work on it, or it ends as the
table says and the store stays as it is. -/
inductive Lands (g : Gateway) (t : Taken) : Landing → Prop where
  | serve {q : Cache.Query} : g.takesEffect t = true → t.exchange.query? = some q →
      Lands g t (.serve t.exchange q)
  | ended {landing : Landing} {y : Exchange} : g.takesEffect t = false →
      (∀ b : Burst, b.settle landing = { b with outbox := b.outbox.offer (.reply y) }) →
      (∀ s, Ended g t.ticket t.exchange (t.calls g) s y s) → Lands g t landing

theorem launch_lands (hopen : t.exchange.response = none) (hends : g.AlwaysEnds) {moment : Moment}
    {landing : Landing}
    (h : (g.launch t.ticket t.exchange).outcome = some (moment, landing)) : Lands g t landing := by
  by_cases ht : g.takesEffect t = true
  · obtain ⟨moment', q, hq, hserve⟩ := serve_of_takesEffect ht
    rw [h] at hserve
    cases hserve
    exact .serve ht hq
  · obtain ⟨moment', landing', hlaunch, hland⟩ :=
      launch_ended hopen (hends.finishes t.ticket t.exchange)
    rw [h] at hlaunch
    cases hlaunch
    -- nothing of such an end depends on the store
    have hsame : ∃ r, (∀ s, landing.land s = (r, s)) ∧
        ∀ b : Burst, b.settle landing = b.deliver landing := by
      cases landing with
      | serve x q => exact absurd (takesEffect_of_serve h) ht
      | reply y => exact ⟨_, fun _ => rfl, fun _ => rfl⟩
      | answer x r => exact ⟨_, fun _ => rfl, fun _ => rfl⟩
    obtain ⟨r, hstore, hsettle⟩ := hsame
    obtain ⟨y, s₁, hy, -⟩ := hland .fresh
    rw [hstore] at hy
    obtain rfl : r = .ok y := congrArg Prod.fst hy
    refine .ended (y := y) (Bool.eq_false_iff.mpr ht) (fun b => ?_) fun s => ?_
    · rw [hsettle]
      simp only [Burst.deliver, Gateway.State.deliver, Gateway.State.land, hstore]
    · obtain ⟨y', s', hy', hended⟩ := hland s
      rw [hstore] at hy'
      cases hy'
      exact hended

namespace Burst

/-! ## What the store has done -/

/-- What the store did at the table of a key, or with the count of the keys, for a command. -/
structure Touch where
  taken : Taken
  part : Part
  finding : Finding
  deriving DecidableEq, Repr

/-- What the store did for one command. -/
def own (t : Taken) (touches : List Touch) : List Touch := touches.filter (·.taken = t)

theorem own_concat {c : Touch} (h : c.taken = t) (touches : List Touch) :
    own t (touches ++ [c]) = own t touches ++ [c] := by
  simp [own, h]

theorem own_concat_of_ne {c : Touch} (h : c.taken ≠ t) (touches : List Touch) :
    own t (touches ++ [c]) = own t touches := by
  simp [own, h]

theorem own_eq_nil {touches : List Touch} (h : ∀ c ∈ touches, c.taken ≠ t) :
    own t touches = [] := by
  simpa [own] using h

/-- Touches lead from one store to another: one part after another, each at one go, finds what it
has found and leaves the same behind. Sizes may be off, by so many keys short and so many over. -/
def History (short beyond : Nat) (s : Store) (touches : List Touch) (s' : Store) : Prop :=
  ∃ findings, s.carryOut (touches.map Touch.part) = (findings, s') ∧
    List.Forall₂ (Finding.Near short beyond) findings (touches.map Touch.finding)

namespace History

variable {short beyond : Nat} {touches : List Touch}

theorem nil (short beyond : Nat) (s : Store) : History short beyond s [] s := ⟨[], rfl, .nil⟩

theorem mono {short' beyond' : Nat} (h : History short beyond s touches s')
    (hshort : short ≤ short') (hbeyond : beyond ≤ beyond') :
    History short' beyond' s touches s' := by
  obtain ⟨findings, hstore, hnear⟩ := h
  exact ⟨findings, hstore, hnear.imp fun _ _ h => h.mono hshort hbeyond⟩

theorem concat (h : History short beyond s touches s') {c : Touch}
    (hnear : Finding.Near short beyond (c.part.perform s').1 c.finding) :
    History short beyond s (touches ++ [c]) (c.part.perform s').2 := by
  obtain ⟨findings, hstore, hall⟩ := h
  refine ⟨findings ++ [(c.part.perform s').1], ?_, ?_⟩
  · rw [List.map_append, Store.carryOut_append, hstore]
    rfl
  · rw [List.map_append]
    exact List.rel_append hall (.cons hnear .nil)

end History

/-! ## Errands and what they have done -/

variable {touches touches' : List Touch} {e e' : Errand} {w : Serving}

/-- An errand for a command, by what the store has done for it. -/
structure Runs (g : Gateway) (touches : List Touch) (t : Taken) (e : Errand) : Prop where
  ahead : e.ahead <:+ g.parts t
  parts : (own t touches).map Touch.part ++ e.untouched = g.parts t
  findings : (own t touches).map Touch.finding = e.found

/-- The store is at work on a command. -/
structure Serves (g : Gateway) (touches : List Touch) (t : Taken) (w : Serving) : Prop where
  exchange : w.exchange = t.exchange
  query : t.exchange.query? = some w.query
  effect : g.takesEffect t = true
  runs : Runs g touches t w.errand

/-- A command that has ended. -/
structure End where
  taken : Taken
  /-- The exchange with its reply. -/
  reply : Exchange
  /-- Whether its time ran out while the store was at work on it. -/
  givenUp : Bool
  deriving DecidableEq, Repr

/-- The reply to a command by what was found for it. -/
def heard (touches : List Touch) (t : Taken) : Option Reply :=
  t.exchange.query?.map fun q =>
    (q.conclude ((own t touches).map Touch.finding)).reply t.exchange.command

/-- What a command ends with, by what the store has done for it. -/
inductive Told (g : Gateway) (touches : List Touch) : End → Prop where
  /-- A command that does not take effect ends as the table says, and nothing is done for it. -/
  | still {t : Taken} {y : Exchange} : g.takesEffect t = false → own t touches = [] →
      (∀ s, Ended g t.ticket t.exchange (t.calls g) s y s) → Told g touches ⟨t, y, false⟩
  /-- One that does is answered with what was found for it, when all of its parts are done. -/
  | answered {t : Taken} : g.takesEffect t = true → (own t touches).map Touch.part = g.parts t →
      Told g touches ⟨t, { t.exchange with response := heard touches t }, false⟩
  /-- One whose time runs out meanwhile is answered with an error. -/
  | givenUp {t : Taken} : g.takesEffect t = true → g.limit ≠ none →
      Told g touches
        ⟨t, { t.exchange with response := some (.error "ERR Operation timed out!") }, true⟩

theorem Runs.of_own (h : Runs g touches t e) (hown : own t touches' = own t touches) :
    Runs g touches' t e := ⟨h.ahead, by rw [hown, h.parts], by rw [hown, h.findings]⟩

theorem Runs.parts_of_done (h : Runs g touches t e) (hdone : e.ahead = []) :
    (own t touches).map Touch.part = g.parts t := by
  rw [← h.parts, Errand.untouched_of_done hdone, List.append_nil]

theorem Serves.of_own (h : Serves g touches t w) (hown : own t touches' = own t touches) :
    Serves g touches' t w := ⟨h.exchange, h.query, h.effect, h.runs.of_own hown⟩

theorem Told.of_own {d : End} (h : Told g touches d)
    (hown : d.givenUp = false → own d.taken touches' = own d.taken touches) :
    Told g touches' d := by
  cases h with
  | still ht hnone hended => exact .still ht ((hown rfl).trans hnone) hended
  | @answered t ht hparts =>
      have hsame := hown rfl
      have hheard : heard touches' t = heard touches t := by
        unfold heard
        rw [hsame]
      rw [← hheard]
      exact .answered ht (hsame ▸ hparts)
  | givenUp ht hlimit => exact .givenUp ht hlimit

/-! ## Errands go on -/

/-- Whether the store is to bind a key for a command. -/
def binds (g : Gateway) (t : Taken) : Bool := (g.parts t).any Part.binds

/-- Whether the store is to unbind a key for a command. -/
def unbinds (g : Gateway) (t : Taken) : Bool := (g.parts t).any Part.unbinds

theorem any_of_suffix {p : Part → Bool} {ps ps' : List Part} (h : ps <:+ ps')
    (hany : ps.any p = true) : ps'.any p = true := by
  obtain ⟨part, hpart, hp⟩ := List.any_eq_true.mp hany
  exact List.any_eq_true.mpr ⟨part, h.subset hpart, hp⟩

theorem countP_le_of_forall₂ {α β : Type} {R : α → β → Prop} {p : α → Bool} {q : β → Bool}
    (himp : ∀ a b, R a b → q b = true → p a = true) {l : List α} {u : List β}
    (h : List.Forall₂ R l u) : u.countP q ≤ l.countP p := by
  induction h with
  | nil => exact Nat.le_refl _
  | @cons a b l u hab _ ih =>
      rw [List.countP_cons, List.countP_cons]
      by_cases hq : q b = true
      · rw [if_pos hq, if_pos (himp a b hab hq)]
        omega
      · rw [if_neg hq]
        omega

/-- **An access for a command goes on with its errand.** If it is one to a table, it is the next in
the history. -/
theorem Runs.advance {errands : List Errand} {short beyond : Nat} {s₀ s₁ s₂ : Store}
    (h : Runs g touches t e) (hstep : e.Step s₁ e' s₂) (htracks : Tracks (e :: errands) s s₁)
    (hhistory : History short beyond s₀ touches s)
    (hshort : (e :: errands).countP Errand.gains ≤ short)
    (hbeyond : (e :: errands).countP Errand.loses ≤ beyond) :
    ∃ touches' s', (∀ t' ≠ t, own t' touches' = own t' touches) ∧
      (∀ c ∈ touches', c ∈ touches ∨ c.taken = t) ∧ Runs g touches' t e' ∧
      Tracks (e' :: errands) s' s₂ ∧ History short beyond s₀ touches' s' := by
  have hahead : e'.ahead <:+ g.parts t := hstep.ahead.trans h.ahead
  rcases htracks.step hstep with ⟨huntouched, hfound, hafter⟩ | ⟨p, found, huntouched, hfound,
    hnear, hafter⟩
  · refine ⟨touches, s, fun _ _ => rfl, fun _ hc => .inl hc, ⟨hahead, ?_, ?_⟩, hafter, hhistory⟩
    · rw [huntouched, h.parts]
    · rw [hfound, h.findings]
  · have hown : own t (touches ++ [⟨t, p, found⟩]) = own t touches ++ [⟨t, p, found⟩] :=
      own_concat (c := ⟨t, p, found⟩) rfl touches
    refine ⟨touches ++ [⟨t, p, found⟩], _, ?_, ?_, ⟨hahead, ?_, ?_⟩, hafter,
      hhistory.concat (hnear.mono hshort hbeyond)⟩
    · intro t' ht'
      exact own_concat_of_ne (Ne.symm ht') touches
    · intro c hc
      rcases List.mem_append.mp hc with hc | hc
      · exact .inl hc
      · rw [List.mem_singleton.mp hc]
        exact .inr rfl
    · have hparts := h.parts
      rw [huntouched] at hparts
      rw [hown, List.map_append, List.append_assoc]
      exact hparts
    · rw [hown, List.map_append, h.findings, hfound]
      rfl

end Burst

end RespGateway
