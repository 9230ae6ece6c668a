import Mathlib.Data.List.Nodup
import RespGateway.Proofs.Touches

/-!
# How far a burst has come

`Progress` follows a burst from its start. It knows which commands have been taken on, which
of them are under way, at work or have ended, what the store has done for each, and what it
would be if every part were done when it touches its table. There is a lemma for each act,
and `progress_follow` puts them together. When nothing can happen any more, all commands
have ended and no errand is left (`Progress.over`).
-/

namespace RespGateway.Burst

open Store (Part Finding Errand Tracks)

variable {g : Gateway} {t : Taken} {e e' : Errand} {w : Serving} {touches touches' : List Touch}

/-! ## Lists -/

/-- One of those in front is put last. -/
theorem perm_last {α : Type} (before : List α) (a : α) (behind more : List α) :
    (before ++ a :: behind ++ more).Perm (before ++ behind ++ (more ++ [a])) := by
  rw [List.append_assoc, List.cons_append, ← List.append_assoc (before ++ behind),
    List.append_assoc before behind]
  exact List.perm_middle.trans (List.perm_append_singleton a _).symm

theorem ne_of_nodup {α : Type} {before behind more : List α} {a : α}
    (h : (before ++ a :: behind ++ more).Nodup) : ∀ a' ∈ before ++ behind ++ more, a' ≠ a := by
  rw [List.append_assoc, List.cons_append, List.nodup_middle, ← List.append_assoc,
    List.nodup_cons] at h
  intro a' ha' heq
  exact h.1 (heq ▸ ha')

theorem forall₂_middle {α β : Type} {R : α → β → Prop} {c : β} {behind : List β} :
    ∀ {before : List β} {l : List α}, List.Forall₂ R l (before ++ c :: behind) →
      ∃ before' a behind', l = before' ++ a :: behind' ∧ R a c ∧
        List.Forall₂ R before' before ∧ List.Forall₂ R behind' behind := by
  intro before
  induction before with
  | nil =>
      intro l h
      cases h with
      | @cons a _ l _ ha hrest => exact ⟨[], a, l, rfl, ha, .nil, hrest⟩
  | cons d before ih =>
      intro l h
      cases h with
      | @cons a _ l _ ha hrest =>
          obtain ⟨before', a', behind', rfl, ha', hbefore, hbehind⟩ := ih hrest
          exact ⟨a :: before', a', behind', rfl, ha', .cons ha hbefore, hbehind⟩

theorem forall₂_of_own {β : Type} {R : List Touch → Taken → β → Prop}
    (hR : ∀ t b, own t touches' = own t touches → R touches t b → R touches' t b) {l : List Taken}
    {u : List β} (h : List.Forall₂ (R touches) l u)
    (hown : ∀ t ∈ l, own t touches' = own t touches) : List.Forall₂ (R touches') l u := by
  induction h with
  | nil => exact .nil
  | cons hfirst _ ih =>
      rw [List.forall_mem_cons] at hown
      exact .cons (hR _ _ hown.1 hfirst) (ih hown.2)

/-! ## Errands and replies -/

/-- What is in an outbox after replies have been put in. -/
def offered (o : Outbox) (ys : List Exchange) : Outbox :=
  ys.foldl (fun o y => o.offer (.reply y)) o

theorem offered_concat (o : Outbox) (ys : List Exchange) (y : Exchange) :
    offered o (ys ++ [y]) = (offered o ys).offer (.reply y) := by
  simp [offered]

theorem offered_open {o : Outbox} (h : o.isOpen = true) (ys : List Exchange) :
    offered o ys = { o with waiting := o.waiting ++ ys.map .reply } := by
  induction ys generalizing o with
  | nil => simp [offered]
  | cons y ys ih =>
      have hfirst : o.offer (.reply y) = { o with waiting := o.waiting ++ [.reply y] } := by
        simp [Outbox.offer, Outbox.push, h]
      have hcons : offered o (y :: ys) = offered (o.offer (.reply y)) ys := rfl
      have hopen : ({ o with waiting := o.waiting ++ [.reply y] } : Outbox).isOpen = true := h
      rw [hcons, hfirst, ih hopen]
      simp

theorem deliver_answer {x : Exchange} (hopen : x.response = none) (r : Reply) (b : Burst) :
    b.deliver (.answer x r) =
      { b with outbox := b.outbox.offer (.reply { x with response := some r }) } := by
  simp only [deliver, Gateway.State.deliver, Gateway.State.land, land_answer hopen]

/-- All errands that the store is at. -/
def errands (b : Burst) : List Errand := b.servings.map Serving.errand ++ b.strays

theorem errands_servings {b : Burst} {before behind : List Serving}
    (h : b.servings = before ++ w :: behind) :
    b.errands.Perm (w.errand :: ((before ++ behind).map Serving.errand ++ b.strays)) := by
  rw [errands, h, List.map_append, List.map_cons, List.append_assoc, List.cons_append,
    List.map_append, List.append_assoc]
  exact List.perm_middle

theorem errands_strays {b : Burst} {before behind : List Errand}
    (h : b.strays = before ++ e :: behind) :
    b.errands.Perm (e :: (b.servings.map Serving.errand ++ (before ++ behind))) := by
  rw [errands, h, ← List.append_assoc, ← List.append_assoc]
  exact List.perm_middle

/-- Those of the commands that were given up. -/
def lost (done : List End) : List Taken := (done.filter End.givenUp).map End.taken

theorem lost_concat (done : List End) (d : End) :
    lost (done ++ [d]) = lost done ++ if d.givenUp then [d.taken] else [] := by
  unfold lost
  rw [List.filter_append, List.map_append]
  cases hd : d.givenUp <;> simp [hd]

theorem lost_sublist (done : List End) : (lost done).Sublist (done.map End.taken) :=
  List.filter_sublist.map End.taken

/-! ## Progress -/

/-- How far a burst has come: `ledger` are the commands taken on, in this order. Of these `underway`
are those whose calls have not ended, `atWork` those that the store is at work on, and `done`
those that have ended, in the order of their ends. `ideal` is what the store would be if each part
were done when it touches its table. -/
structure Progress (g : Gateway) (xs : List Exchange) (work : Gateway.State) (o : Outbox)
    (ledger underway atWork : List Taken) (done : List End) (touches : List Touch) (ideal : Store)
    (b : Burst) : Prop where
  places : xs.Perm (b.waiting ++ ledger.map Taken.exchange)
  shares : ledger.Perm (underway ++ (atWork ++ done.map End.taken))
  calls : b.work.calls = work.calls ++ ledger.flatMap (Taken.calls g)
  tickets : ledger.map Taken.ticket = List.range' work.tickets ledger.length
  next : b.work.tickets = work.tickets + ledger.length
  flights : List.Forall₂ (Taken.Flies g) underway b.flights
  servings : List.Forall₂ (Serves g touches) atWork b.servings
  strays : List.Forall₂ (Runs g touches) (lost done) b.strays
  told : ∀ d ∈ done, Told g touches d
  /-- The store does nothing for a command before its call has ended. -/
  touched : ∀ c ∈ touches, c.taken ∈ atWork ++ done.map End.taken
  tracks : Tracks b.errands ideal b.work.store
  history : History (ledger.countP (binds g)) (ledger.countP (unbinds g)) work.store touches ideal
  outbox : b.outbox = offered o (done.map End.reply)

variable {xs : List Exchange} {work : Gateway.State} {o : Outbox}
  {ledger underway atWork : List Taken} {done : List End} {ideal : Store} {b b' : Burst}

theorem progress_start (g : Gateway) (xs : List Exchange) (work : Gateway.State) (o : Outbox) :
    Progress g xs work o [] [] [] [] [] work.store (start xs work o) where
  places := by simp [start]
  shares := .refl _
  calls := (List.append_nil _).symm
  tickets := rfl
  next := rfl
  flights := .nil
  servings := .nil
  strays := .nil
  told := by simp
  touched := by simp
  tracks := rfl
  history := .nil _ _ _
  outbox := rfl

namespace Progress

theorem nodup_ledger (h : Progress g xs work o ledger underway atWork done touches ideal b) :
    ledger.Nodup := by
  refine List.Nodup.of_map Taken.ticket ?_
  rw [h.tickets]
  exact List.nodup_range'

theorem nodup (h : Progress g xs work o ledger underway atWork done touches ideal b) :
    (underway ++ (atWork ++ done.map End.taken)).Nodup :=
  h.shares.nodup_iff.mp h.nodup_ledger

/-- Nothing has been done for a command whose call is under way. -/
theorem own_underway (h : Progress g xs work o ledger underway atWork done touches ideal b)
    {t : Taken} (ht : t ∈ underway) : own t touches = [] := by
  refine own_eq_nil fun c hc heq => ?_
  exact (List.nodup_append.mp h.nodup).2.2 t ht c.taken (h.touched c hc) heq.symm

theorem exchange_mem (h : Progress g xs work o ledger underway atWork done touches ideal b)
    {t : Taken} (ht : t ∈ underway ++ atWork) : t.exchange ∈ xs := by
  have hledger : t ∈ ledger := by
    rw [h.shares.mem_iff, ← List.append_assoc]
    exact List.mem_append_left _ ht
  exact h.places.mem_iff.mpr (List.mem_append_right _ (List.mem_map_of_mem hledger))

/-- Every errand that the store is at is for a command of its own. -/
theorem runs (h : Progress g xs work o ledger underway atWork done touches ideal b) :
    List.Forall₂ (Runs g touches) (atWork ++ lost done) b.errands := by
  refine List.rel_append ?_ h.strays
  exact List.forall₂_map_right_iff.mpr (h.servings.imp fun _ _ hw => hw.runs)

theorem count_le (h : Progress g xs work o ledger underway atWork done touches ideal b)
    (p : Taken → Bool) : (atWork ++ lost done).countP p ≤ ledger.countP p := by
  have hsub : (atWork ++ lost done).Sublist (underway ++ (atWork ++ done.map End.taken)) :=
    (List.Sublist.append_left (lost_sublist done) atWork).trans (List.sublist_append_right _ _)
  rw [h.shares.countP_eq p]
  exact hsub.countP_le

theorem gains_le (h : Progress g xs work o ledger underway atWork done touches ideal b) :
    b.errands.countP Errand.gains ≤ ledger.countP (binds g) := by
  refine Nat.le_trans (countP_le_of_forall₂ (fun t e hruns he => ?_) h.runs) (h.count_le (binds g))
  exact any_of_suffix hruns.ahead (Errand.any_binds he)

theorem loses_le (h : Progress g xs work o ledger underway atWork done touches ideal b) :
    b.errands.countP Errand.loses ≤ ledger.countP (unbinds g) := by
  refine Nat.le_trans (countP_le_of_forall₂ (fun t e hruns he => ?_) h.runs)
    (h.count_le (unbinds g))
  exact any_of_suffix hruns.ahead (Errand.any_unbinds he)

/-! ### One act -/

/-- A command is taken on. -/
theorem launch (h : Progress g xs work o ledger underway atWork done touches ideal b)
    {before behind : List Exchange} {x : Exchange} (hwaiting : b.waiting = before ++ x :: behind) :
    Progress g xs work o (ledger ++ [⟨0, b.work.tickets, x⟩]) (underway ++ [⟨0, b.work.tickets, x⟩])
      atWork done touches ideal
      { b with
        waiting := before ++ behind
        flights := b.flights ++ [(b.work.launch g 0 x).1]
        work := (b.work.launch g 0 x).2 } where
  places := by
    have hplaces := h.places
    rw [hwaiting] at hplaces
    rw [List.map_append, List.map_singleton]
    exact hplaces.trans (perm_last before x behind _)
  shares := by
    have hends := h.shares.append_right [(⟨0, b.work.tickets, x⟩ : Taken)]
    refine hends.trans ?_
    rw [List.append_assoc, List.append_assoc underway]
    exact List.perm_append_comm.append_left underway
  calls := by
    rw [List.flatMap_append, List.flatMap_singleton, ← List.append_assoc, ← h.calls]
    rfl
  tickets := by
    rw [List.map_append, h.tickets, List.length_append, List.length_singleton,
      List.range'_concat, Nat.one_mul, ← h.next]
    rfl
  next := by
    change b.work.tickets + 1 = _
    rw [h.next, List.length_append, List.length_singleton, Nat.add_assoc]
  flights := List.rel_append h.flights (.cons ⟨rfl, 0, rfl⟩ .nil)
  servings := h.servings
  strays := h.strays
  told := h.told
  touched := h.touched
  tracks := h.tracks
  history := by
    rw [List.countP_append, List.countP_append]
    exact h.history.mono (Nat.le_add_right _ _) (Nat.le_add_right _ _)
  outbox := h.outbox

/-- A command ends, and the store stays as it is. -/
theorem finish (h : Progress g xs work o ledger underway atWork done touches ideal b)
    {underway' atWork' : List Taken} {d : End} (hwaiting : b'.waiting = b.waiting)
    (hwork : b'.work = b.work) (houtbox : b'.outbox = b.outbox.offer (.reply d.reply))
    (hshares : (underway ++ (atWork ++ done.map End.taken)).Perm
      (underway' ++ (atWork' ++ (done.map End.taken ++ [d.taken]))))
    (hstay : atWork ⊆ atWork' ++ [d.taken])
    (hflights : List.Forall₂ (Taken.Flies g) underway' b'.flights)
    (hservings : List.Forall₂ (Serves g touches) atWork' b'.servings)
    (hstrays : List.Forall₂ (Runs g touches) (lost (done ++ [d])) b'.strays)
    (htold : Told g touches d) (htracks : Tracks b'.errands ideal b.work.store) :
    Progress g xs work o ledger underway' atWork' (done ++ [d]) touches ideal b' where
  places := hwaiting ▸ h.places
  shares := by
    rw [List.map_append]
    exact h.shares.trans hshares
  calls := hwork ▸ h.calls
  tickets := h.tickets
  next := hwork ▸ h.next
  flights := hflights
  servings := hservings
  strays := hstrays
  told := List.forall_mem_append.mpr ⟨h.told, List.forall_mem_singleton.mpr htold⟩
  touched := by
    intro c hc
    rw [List.map_append]
    rcases List.mem_append.mp (h.touched c hc) with hc | hc
    · rcases List.mem_append.mp (hstay hc) with hc | hc
      · exact List.mem_append_left _ hc
      · exact List.mem_append_right _ (List.mem_append_right _ hc)
    · exact List.mem_append_right _ (List.mem_append_left _ hc)
  tracks := hwork ▸ htracks
  history := h.history
  outbox := by
    rw [houtbox, List.map_append, List.map_singleton, offered_concat, ← h.outbox]

/-- The store makes an access for one of the commands that it was left to answer. -/
theorem advance (h : Progress g xs work o ledger underway atWork done touches ideal b)
    {servings : List Serving} {strays : List Errand} {s ideal' : Store}
    (ht : t ∈ atWork ++ done.map End.taken) (hnew : ∀ c ∈ touches', c ∈ touches ∨ c.taken = t)
    (hservings : List.Forall₂ (Serves g touches') atWork servings)
    (hstrays : List.Forall₂ (Runs g touches') (lost done) strays)
    (htold : ∀ d ∈ done, Told g touches' d)
    (htracks : Tracks (servings.map Serving.errand ++ strays) ideal' s)
    (hhistory : History (ledger.countP (binds g)) (ledger.countP (unbinds g)) work.store touches'
      ideal') :
    Progress g xs work o ledger underway atWork done touches' ideal'
      { b with servings, strays, work := { b.work with store := s } } where
  places := h.places
  shares := h.shares
  calls := h.calls
  tickets := h.tickets
  next := h.next
  flights := h.flights
  servings := hservings
  strays := hstrays
  told := htold
  touched := by
    intro c hc
    rcases hnew c hc with hc | hc
    · exact h.touched c hc
    · exact hc ▸ ht
  tracks := htracks
  history := hhistory
  outbox := h.outbox

/-- The call for a command ends. -/
theorem land (h : Progress g xs work o ledger underway atWork done touches ideal b)
    (hopen : ∀ x ∈ xs, x.response = none) (hends : g.AlwaysEnds) {before behind : List Flight}
    {f : Flight} {moment : Moment} {landing : Landing}
    (hflights : b.flights = before ++ f :: behind) (houtcome : f.outcome = some (moment, landing)) :
    ∃ underway' atWork' done', done'.countP End.givenUp = done.countP End.givenUp ∧
      Progress g xs work o ledger underway' atWork' done' touches ideal
        ({ b with flights := before ++ behind }.settle landing) := by
  have hall := h.flights
  rw [hflights] at hall
  obtain ⟨before', t, behind', rfl, hflies, hbefore, hbehind⟩ := forall₂_middle hall
  have htaken : t ∈ before' ++ t :: behind' := by simp
  have hx : t.exchange.response = none :=
    hopen _ (h.exchange_mem (List.mem_append_left _ htaken))
  -- the flight ends as its command does, only later
  obtain ⟨-, now, hlater⟩ := hflies
  rw [houtcome] at hlater
  obtain ⟨⟨moment', landing'⟩, hlaunch, heq⟩ := Option.map_eq_some_iff.mp hlater.symm
  cases heq
  have hown := h.own_underway htaken
  have hshares := h.shares
  cases launch_lands hx hends hlaunch with
  | @serve q ht hq =>
      refine ⟨before' ++ behind', atWork ++ [t], done, rfl, ?_⟩
      exact
        { places := h.places
          shares := by
            rw [← List.append_assoc] at hshares
            refine hshares.trans ((perm_last before' t behind' atWork).append_right _ |>.trans ?_)
            rw [List.append_assoc]
          calls := h.calls
          tickets := h.tickets
          next := h.next
          flights := List.rel_append hbefore hbehind
          servings := by
            refine List.rel_append h.servings (.cons ⟨rfl, hq, ht, ?_, ?_, ?_⟩ .nil)
            · exact ⟨[], (parts_of_effect ht hq).symm⟩
            · rw [hown]
              exact (parts_of_effect ht hq).symm
            · rw [hown]
              rfl
          strays := h.strays
          told := h.told
          touched := by
            intro c hc
            rw [List.append_assoc]
            exact List.mem_append.mpr ((List.mem_append.mp (h.touched c hc)).imp_right
              (List.mem_append_right _))
          tracks := by
            -- an errand that has not begun makes no difference
            have htracks : Tracks ({ ahead := q.parts } :: b.errands) ideal b.work.store := h.tracks
            refine htracks.perm (.trans ?_ (errands_servings rfl).symm)
            rw [List.append_nil]
            exact .refl _
          history := h.history
          outbox := h.outbox }
  | @ended _ y ht hsettle hended =>
      rw [hsettle]
      refine ⟨before' ++ behind', atWork, done ++ [⟨t, y, false⟩], by simp, h.finish rfl rfl rfl ?_
        (List.subset_append_left _ _) (List.rel_append hbefore hbehind) h.servings ?_
        (.still ht hown hended) h.tracks⟩
      · rw [← List.append_assoc atWork]
        exact perm_last before' t behind' _
      · rw [lost_concat]
        exact (List.append_nil _).symm ▸ h.strays

/-- The store makes an access for a command that waits for it. -/
theorem access (h : Progress g xs work o ledger underway atWork done touches ideal b)
    {before behind : List Serving} {s : Store} (hservings : b.servings = before ++ w :: behind)
    (hstep : w.errand.Step b.work.store e s) :
    ∃ touches' ideal', Progress g xs work o ledger underway atWork done touches' ideal'
      { b with
        servings := before ++ { w with errand := e } :: behind
        work := { b.work with store := s } } := by
  have hall := h.servings
  rw [hservings] at hall
  obtain ⟨before', t, behind', rfl, hserves, hbefore, hbehind⟩ := forall₂_middle hall
  have hperm := errands_servings hservings
  have hshort := h.gains_le
  have hbeyond := h.loses_le
  rw [hperm.countP_eq] at hshort hbeyond
  obtain ⟨touches', ideal', hothers, hnew, hruns, htracks, hhistory⟩ :=
    hserves.runs.advance hstep (h.tracks.perm hperm) h.history hshort hbeyond
  -- nobody else is this command
  have hne := ne_of_nodup (List.nodup_append.mp h.nodup).2.1
  have hown : ∀ t' ∈ before' ++ behind' ++ done.map End.taken, own t' touches' = own t' touches :=
    fun t' ht' => hothers t' (hne t' ht')
  refine ⟨touches', ideal', h.advance (t := t) (by simp) hnew ?_ ?_ ?_ ?_ hhistory⟩
  · refine List.rel_append (forall₂_of_own (fun _ _ heq hr => hr.of_own heq) hbefore ?_)
      (.cons ⟨hserves.exchange, hserves.query, hserves.effect, hruns⟩
        (forall₂_of_own (fun _ _ heq hr => hr.of_own heq) hbehind ?_))
    · exact fun t' ht' => hown t' (List.mem_append_left _ (List.mem_append_left _ ht'))
    · exact fun t' ht' => hown t' (List.mem_append_left _ (List.mem_append_right _ ht'))
  · exact forall₂_of_own (fun _ _ heq hr => hr.of_own heq) h.strays fun t' ht' =>
      hown t' (List.mem_append_right _ ((lost_sublist done).subset ht'))
  · exact fun d hd => (h.told d hd).of_own fun _ =>
      hown d.taken (List.mem_append_right _ (List.mem_map_of_mem hd))
  · exact htracks.perm (errands_servings (b := { b with servings := _ }) rfl).symm

/-- The store makes an access for a command that was given up. -/
theorem stray (h : Progress g xs work o ledger underway atWork done touches ideal b)
    {before behind : List Errand} {s : Store} (hstrays : b.strays = before ++ e :: behind)
    (hstep : e.Step b.work.store e' s) :
    ∃ touches' ideal', Progress g xs work o ledger underway atWork done touches' ideal'
      { b with strays := before ++ e' :: behind, work := { b.work with store := s } } := by
  have hall := h.strays
  rw [hstrays] at hall
  obtain ⟨before', t, behind', hlost, hruns, hbefore, hbehind⟩ := forall₂_middle hall
  have hperm := errands_strays hstrays
  have hshort := h.gains_le
  have hbeyond := h.loses_le
  rw [hperm.countP_eq] at hshort hbeyond
  obtain ⟨touches', ideal', hothers, hnew, hruns', htracks, hhistory⟩ :=
    hruns.advance hstep (h.tracks.perm hperm) h.history hshort hbeyond
  have hmem : t ∈ lost done := by
    rw [hlost]
    simp
  have hdone : t ∈ done.map End.taken := (lost_sublist done).subset hmem
  -- nobody else is this command
  have hnodup := (List.nodup_append.mp h.nodup).2.1
  have hatWork : ∀ t' ∈ atWork, t' ≠ t := fun t' ht' =>
    (List.nodup_append.mp hnodup).2.2 t' ht' t hdone
  have hothersLost : ∀ t' ∈ before' ++ behind' ++ [], t' ≠ t := by
    have hsub := (lost_sublist done).nodup (List.nodup_append.mp hnodup).2.1
    rw [hlost] at hsub
    exact ne_of_nodup ((List.append_nil _).symm ▸ hsub)
  have htold : ∀ d ∈ done, d.givenUp = false → d.taken ≠ t := by
    intro d hd hkept heq
    obtain ⟨d', hd', rfl⟩ := List.mem_map.mp hmem
    obtain ⟨hd', hgone⟩ := List.mem_filter.mp hd'
    obtain rfl := List.inj_on_of_nodup_map (List.nodup_append.mp hnodup).2.1 hd hd' heq
    rw [hkept] at hgone
    cases hgone
  refine ⟨touches', ideal', h.advance (List.mem_append_right _ hdone) hnew ?_ ?_ ?_ ?_ hhistory⟩
  · exact forall₂_of_own (fun _ _ heq hr => hr.of_own heq) h.servings fun t' ht' =>
      hothers t' (hatWork t' ht')
  · rw [hlost]
    refine List.rel_append (forall₂_of_own (fun _ _ heq hr => hr.of_own heq) hbefore ?_)
      (.cons hruns' (forall₂_of_own (fun _ _ heq hr => hr.of_own heq) hbehind ?_))
    · exact fun t' ht' => hothers t' (hothersLost t' (by simp [ht']))
    · exact fun t' ht' => hothers t' (hothersLost t' (by simp [ht']))
  · exact fun d hd => (h.told d hd).of_own fun hkept => hothers d.taken (htold d hd hkept)
  · exact htracks.perm (errands_strays (b := { b with strays := _ }) rfl).symm

/-- A command whose errand is done ends with what was found for it. -/
theorem reply (h : Progress g xs work o ledger underway atWork done touches ideal b)
    (hopen : ∀ x ∈ xs, x.response = none) {before behind : List Serving}
    (hservings : b.servings = before ++ w :: behind) (hdone : w.errand.ahead = []) :
    ∃ atWork' d, d.givenUp = false ∧
      Progress g xs work o ledger underway atWork' (done ++ [d]) touches ideal
        ({ b with servings := before ++ behind }.deliver w.landing) := by
  have hall := h.servings
  rw [hservings] at hall
  obtain ⟨before', t, behind', rfl, hserves, hbefore, hbehind⟩ := forall₂_middle hall
  have hx : t.exchange.response = none := hopen _ (h.exchange_mem (by simp))
  have hheard : heard touches t =
      some ((w.query.conclude w.errand.findings).reply t.exchange.command) := by
    unfold heard
    rw [hserves.query, hserves.runs.findings, Errand.found_of_done hdone]
    rfl
  have htold := Told.answered hserves.effect (hserves.runs.parts_of_done hdone)
  rw [Serving.landing, hserves.exchange, deliver_answer hx, ← hheard]
  refine ⟨before' ++ behind', _, rfl, h.finish rfl rfl rfl
    ((perm_last before' t behind' _).append_left _) (by simp) h.flights
    (List.rel_append hbefore hbehind) ?_ htold ?_⟩
  · rw [lost_concat]
    exact (List.append_nil _).symm ▸ h.strays
  · have htracks := h.tracks.perm (errands_servings hservings)
    exact (Tracks.cons_done hdone).mp htracks

/-- A command is given up while the store is at work on it. -/
theorem giveUp (h : Progress g xs work o ledger underway atWork done touches ideal b)
    (hopen : ∀ x ∈ xs, x.response = none) {before behind : List Serving}
    (hservings : b.servings = before ++ w :: behind) (hlimit : g.limit ≠ none) :
    ∃ atWork' d, d.givenUp = true ∧
      Progress g xs work o ledger underway atWork' (done ++ [d]) touches ideal
        ({ b with servings := before ++ behind, strays := b.strays ++ [w.errand] }.deliver
          (.answer w.exchange (.generic Reply.operationTimedOut))) := by
  have hall := h.servings
  rw [hservings] at hall
  obtain ⟨before', t, behind', rfl, hserves, hbefore, hbehind⟩ := forall₂_middle hall
  have hx : t.exchange.response = none := hopen _ (h.exchange_mem (by simp))
  rw [hserves.exchange, deliver_answer hx]
  refine ⟨before' ++ behind', _, rfl, h.finish rfl rfl rfl
    ((perm_last before' t behind' _).append_left _) (by simp) h.flights
    (List.rel_append hbefore hbehind) ?_ (.givenUp hserves.effect hlimit) ?_⟩
  · rw [lost_concat]
    exact List.rel_append h.strays (.cons hserves.runs .nil)
  · refine h.tracks.perm ?_
    refine (errands_servings hservings).trans ?_
    change (w.errand :: ((before ++ behind).map Serving.errand ++ b.strays)).Perm
      ((before ++ behind).map Serving.errand ++ (b.strays ++ [w.errand]))
    rw [← List.append_assoc]
    exact (List.perm_append_singleton _ _).symm

end Progress

/-! ## All acts -/

/-- **Every course of a burst has its ledger and its history.** -/
theorem progress_follow (hopen : ∀ x ∈ xs, x.response = none) (hends : g.AlwaysEnds)
    {acts : List Act} (hrun : (start xs work o).follow? g acts = some b) :
    ∃ ledger underway atWork done touches ideal,
      Progress g xs work o ledger underway atWork done touches ideal b ∧
        done.countP End.givenUp = acts.countP Act.givesUp := by
  refine follow?_induction (P := fun acts b => ∃ ledger underway atWork done touches ideal,
    Progress g xs work o ledger underway atWork done touches ideal b ∧
      done.countP End.givenUp = acts.countP Act.givesUp) ?_ ?_ hrun
  · exact ⟨[], [], [], [], [], _, progress_start g xs work o, rfl⟩
  · rintro acts b a b' ⟨ledger, underway, atWork, done, touches, ideal, h, hcount⟩ heffect
    rw [List.countP_append, ← hcount]
    cases heffect with
    | launch hwaiting => exact ⟨_, _, _, _, _, _, h.launch hwaiting, rfl⟩
    | land hflights houtcome =>
        obtain ⟨underway', atWork', done', hkept, h'⟩ := h.land hopen hends hflights houtcome
        exact ⟨_, _, _, _, _, _, h', hkept⟩
    | access hservings hstep =>
        obtain ⟨touches', ideal', h'⟩ := h.access hservings hstep
        exact ⟨_, _, _, _, _, _, h', rfl⟩
    | reply hservings hdone =>
        obtain ⟨atWork', d, hkept, h'⟩ := h.reply hopen hservings hdone
        exact ⟨_, _, _, _, _, _, h', by simp [hkept, Act.givesUp]⟩
    | giveUp hservings hlimit =>
        obtain ⟨atWork', d, hgone, h'⟩ := h.giveUp hopen hservings hlimit
        exact ⟨_, _, _, _, _, _, h', by simp [hgone, Act.givesUp]⟩
    | stray hstrays hstep =>
        obtain ⟨touches', ideal', h'⟩ := h.stray hstrays hstep
        exact ⟨_, _, _, _, _, _, h', rfl⟩

theorem over_of_empty {b : Burst} (hwaiting : b.waiting = []) (hflights : b.flights = [])
    (hservings : b.servings = []) (hstrays : ∀ e ∈ b.strays, e.ahead = []) : b.Over g := by
  intro a
  cases a with
  | launch place => simp [act?, hwaiting]
  | land place => simp [act?, hflights]
  | access place => simp [act?, hservings]
  | reply place => simp [act?, hservings]
  | giveUp place => simp [act?, hservings]
  | stray place =>
      cases hplace : b.strays[place]? with
      | none => simp [act?, hplace]
      | some e =>
          have hnone := Errand.step?_eq_none (s := b.work.store) |>.mpr
            (hstrays e (List.mem_of_getElem? hplace))
          simp [act?, hplace, hnone]

/-- Where nothing can happen any more, all commands have been taken on and have ended, and no errand
is left. -/
theorem Progress.over {touches : List Touch}
    (h : Progress g xs work o ledger underway atWork done touches ideal b)
    (hends : g.AlwaysEnds) (hover : b.Over g) :
    b.waiting = [] ∧ underway = [] ∧ atWork = [] ∧ ∀ e ∈ b.errands, e.ahead = [] := by
  have hwaiting : b.waiting = [] := by
    have hnone := hover (.launch 0)
    rw [act?, Option.map_eq_none_iff] at hnone
    exact List.eq_nil_of_length_eq_zero (by simpa using hnone)
  have hunderway : underway = [] := by
    have hall := h.flights
    generalize hb : b.flights = flights at hall
    cases hall with
    | nil => rfl
    | @cons t f _ flights hflies hrest =>
        -- the first one could end
        obtain ⟨-, now, hlater⟩ := hflies
        obtain ⟨moment, landing, hlaunch⟩ := launch_ends hends t.ticket t.exchange
        have hnone := hover (.land 0)
        simp [act?, hb, hlater, hlaunch] at hnone
  have hservings : b.servings = [] := by
    cases hb : b.servings with
    | nil => rfl
    | cons w servings =>
        -- the store could go on with the first one, or it could end
        have haccess := hover (.access 0)
        have hreply := hover (.reply 0)
        have hdone : w.errand.ahead = [] := by
          refine Errand.step?_eq_none (s := b.work.store) |>.mp ?_
          simpa [act?, hb] using haccess
        simp [act?, hb, hdone] at hreply
  have hatWork : atWork = [] := by
    have hall := h.servings
    rw [hservings] at hall
    exact List.forall₂_nil_right_iff.mp hall
  refine ⟨hwaiting, hunderway, hatWork, ?_⟩
  intro e he
  rw [errands, hservings, List.map_nil, List.nil_append] at he
  obtain ⟨place, hplace⟩ := List.getElem?_of_mem he
  have hnone := hover (.stray place)
  refine Errand.step?_eq_none (s := b.work.store) |>.mp ?_
  simpa [act?, hplace] using hnone

end RespGateway.Burst
