import RespGateway.Proofs.Carried
import RespGateway.Proofs.Launch

/-!
# Where a connection stands

A connection has heard requests, of which some have been answered and some are under
way. `Standing` relates what has arrived from the client, the commands taken on for it
and what was put in its outbox to the state of the connection. Nothing is lost or
doubled between these: each request that the reader took off the stream has exactly one
place, and in ordered mode they stand in the order of the stream.

Nothing is assumed here about handlers or the cache, and both modes are covered. The
lemmas say what each effect of a move does to the standing of its connection.
-/

namespace RespGateway

/-! ## Commands and deliveries -/

/-- A command that was taken on. -/
structure Taken where
  /-- The connection whose client sent it. -/
  connection : Nat
  ticket : Nat
  exchange : Exchange
  deriving DecidableEq, Repr

/-- Something that was put in an outbox, and what it was put there for. -/
inductive Delivery where
  /-- The error for a request that was refused. -/
  | refusal (why : Exchange.Refusal)
  /-- The exchange with which a command ended. -/
  | reply (taken : Taken) (y : Exchange)
  /-- The error that ends the connection. -/
  | farewell (r : Reply)
  deriving DecidableEq, Repr

namespace Delivery

/-- What was put in the outbox. -/
def item : Delivery → Outgoing
  | .refusal why => .rejection why.reply
  | .reply _ y => .reply y
  | .farewell r => .rejection r

/-- The request that is answered. -/
def request? : Delivery → Option (Except Exchange.Refusal Exchange)
  | .refusal why => some (.error why)
  | .reply t _ => some (.ok t.exchange)
  | .farewell _ => none

/-- The command that is answered. -/
def taken? : Delivery → Option Taken
  | .reply t _ => some t
  | _ => none

/-- The error that ends the connection. -/
def farewell? : Delivery → Option Reply
  | .farewell r => some r
  | _ => none

/-- How a delivery comes about, and what becomes of the store with it. -/
inductive Comes (g : Gateway) : Delivery → Store → Store → Prop where
  | refusal (why : Exchange.Refusal) (s : Store) : Comes g (.refusal why) s s
  | reply {t : Taken} {y : Exchange} {moment : Moment} {landing : Landing} {s s' : Store} :
      (g.launch t.ticket t.exchange).outcome = some (moment, landing) →
      landing.land s = (.ok y, s') → Comes g (.reply t y) s s'
  | farewell (r : Reply) (s : Store) : Comes g (.farewell r) s s

end Delivery

/-- The error that a client has been told. -/
def Reader.told : Reader → List Reply
  | .finished why => why.told.toList
  | _ => []

/-- A last command that has not been taken on yet. -/
def Reader.held : Reader → List (Except Exchange.Refusal Exchange)
  | .draining x => [.ok x]
  | _ => []

/-! ## Order where it is kept -/

/-- The same things, and in the same order where replies keep the order of requests. -/
structure Arranged {α : Type} (o : Connection.Options) (l l' : List α) : Prop where
  perm : l.Perm l'
  eq : o.ordered = true → l = l'

namespace Arranged

variable {α : Type} {o : Connection.Options} {l l' l'' : List α}

theorem refl (l : List α) : Arranged o l l := ⟨.refl l, fun _ => rfl⟩

theorem trans (h : Arranged o l l') (h' : Arranged o l' l'') : Arranged o l l'' :=
  ⟨h.perm.trans h'.perm, fun ho => (h.eq ho).trans (h'.eq ho)⟩

theorem symm (h : Arranged o l l') : Arranged o l' l := ⟨h.perm.symm, fun ho => (h.eq ho).symm⟩

theorem map {β : Type} (f : α → β) (h : Arranged o l l') : Arranged o (l.map f) (l'.map f) :=
  ⟨h.perm.map f, fun ho => congrArg (List.map f) (h.eq ho)⟩

theorem filterMap {β : Type} (f : α → Option β) (h : Arranged o l l') :
    Arranged o (l.filterMap f) (l'.filterMap f) :=
  ⟨h.perm.filterMap f, fun ho => congrArg (List.filterMap f) (h.eq ho)⟩

theorem append_right (h : Arranged o l l') (m : List α) : Arranged o (l ++ m) (l' ++ m) :=
  ⟨h.perm.append_right m, fun ho => congrArg (· ++ m) (h.eq ho)⟩

theorem append_left (h : Arranged o l l') (m : List α) : Arranged o (m ++ l) (m ++ l') :=
  ⟨h.perm.append_left m, fun ho => congrArg (m ++ ·) (h.eq ho)⟩

/-- Something goes in front of things that there are none of where the order is kept. -/
theorem to_front (h : o.ordered = true → l = []) (a : α) : Arranged o (l ++ [a]) (a :: l) :=
  ⟨List.perm_append_singleton a l, fun ho => by rw [h ho]; rfl⟩

theorem middle_to_front {l : List α} (h : o.ordered = true → l = []) (a : α)
    (behind : List α) : Arranged o (l ++ a :: behind) (a :: (l ++ behind)) :=
  ⟨List.perm_middle, fun ho => by rw [h ho]; rfl⟩

end Arranged

theorem filterMap_concat_none {α β : Type} {f : α → Option β} {a : α} (h : f a = none)
    (l : List α) : (l ++ [a]).filterMap f = l.filterMap f := by
  rw [List.filterMap_append, List.filterMap_cons_none h, List.filterMap_nil, List.append_nil]

theorem filterMap_concat_some {α β : Type} {f : α → Option β} {a : α} {b : β} (h : f a = some b)
    (l : List α) : (l ++ [a]).filterMap f = l.filterMap f ++ [b] := by
  rw [List.filterMap_append, List.filterMap_cons_some h, List.filterMap_nil]

theorem Forall₂.mem_right {α β : Type} {R : α → β → Prop} {l : List α} {l' : List β}
    (h : List.Forall₂ R l l') {b : β} (hb : b ∈ l') : ∃ a ∈ l, R a b := by
  induction h with
  | nil => cases hb
  | @cons a b' l l' hab _ ih =>
      rcases List.mem_cons.mp hb with rfl | hb
      · exact ⟨a, List.mem_cons_self .., hab⟩
      · obtain ⟨a', ha', hab'⟩ := ih hb
        exact ⟨a', List.mem_cons_of_mem _ ha', hab'⟩

/-- The end of a command matters only to a reader that waits for it. -/
theorem Reader.afterLanding_cases (ticket : Nat) (r : Reader) :
    r.afterLanding ticket = r ∨ ∃ last, r = .awaiting ticket last ∧
      r.afterLanding ticket = if last then .finished .quit else .reading := by
  cases r with
  | awaiting awaited last =>
      by_cases h : awaited = ticket
      · subst h
        exact Or.inr ⟨last, rfl, if_pos rfl⟩
      · exact Or.inl (if_neg h)
  | _ => exact Or.inl rfl

/-! ## The standing of a connection -/

/-- No last command is under way, and none at all where the reader waits for each. -/
structure Calm (o : Connection.Options) (underway : List Taken) : Prop where
  not_quit : ∀ t ∈ underway, t.exchange.command ≠ .quit
  ordered : o.ordered = true → underway = []

theorem calm_nil (o : Connection.Options) : Calm o [] := ⟨by simp, fun _ => rfl⟩

/-- What is under way fits what the reader waits for. -/
def Reader.Stage (o : Connection.Options) (underway : List Taken) : Reader → Prop
  | .reading => Calm o underway
  | .awaiting ticket last =>
    ∃ t, underway = [t] ∧ t.ticket = ticket ∧ (last = true ↔ t.exchange.command = .quit)
  | .draining x => x.command = .quit ∧ Calm o underway
  | .finished why => Calm o underway ∧ (why = .quit → underway = [])

/-- None of these is the reply to a `QUIT`. -/
def NoQuit (delivered : List Delivery) : Prop :=
  ∀ t y, Delivery.reply t y ∈ delivered → t.exchange.command ≠ .quit

theorem NoQuit.concat {delivered : List Delivery} (h : NoQuit delivered) {d : Delivery}
    (hd : ∀ t y, d = .reply t y → t.exchange.command ≠ .quit) : NoQuit (delivered ++ [d]) := by
  intro t y hmem
  rcases List.mem_append.mp hmem with hmem | hmem
  · exact h t y hmem
  · exact hd t y (List.mem_singleton.mp hmem).symm

/-- The reply to a `QUIT` comes with the end of the reader, and nothing comes after it. -/
structure Reader.Quits (r : Reader) (delivered : List Delivery) : Prop where
  none_before : r ≠ .finished .quit → NoQuit delivered
  last : r = .finished .quit → ∃ earlier t y, delivered = earlier ++ [.reply t y] ∧
    t.exchange.command = .quit ∧ NoQuit earlier

theorem Reader.Quits.of_noQuit {r : Reader} {delivered : List Delivery} (h : NoQuit delivered)
    (hr : r ≠ .finished .quit) : r.Quits delivered :=
  ⟨fun _ => h, fun heq => absurd heq hr⟩

/-- The flight of a command. -/
def Taken.Flies (g : Gateway) (t : Taken) (f : Flight) : Prop :=
  f.ticket = t.ticket ∧ ∃ now, f.outcome =
    (g.launch t.ticket t.exchange).outcome.map fun p => (p.1.after now, p.2)

/-- One command is taken out of those under way. -/
theorem filter_ticket {underway : List Taken} (h : (underway.map Taken.ticket).Nodup) {t : Taken}
    (ht : t ∈ underway) :
    ∃ before behind, underway = before ++ t :: behind ∧
      underway.filter (·.ticket != t.ticket) = before ++ behind := by
  obtain ⟨before, behind, rfl⟩ := List.append_of_mem ht
  refine ⟨before, behind, rfl, ?_⟩
  rw [List.map_append, List.map_cons, List.perm_middle.nodup_iff, List.nodup_cons] at h
  have hother : ∀ t' ∈ before ++ behind, (t'.ticket != t.ticket) = true := by
    intro t' ht'
    rw [bne_iff_ne]
    intro heq
    refine h.1 ?_
    rw [← List.map_append, ← heq]
    exact List.mem_map_of_mem ht'
  rw [List.filter_append, List.filter_cons_of_neg (by simp), ← List.filter_append]
  exact List.filter_eq_self.mpr hother

/-- Where a connection stands: `past` are the requests that its reader has taken off the stream,
`underway` the commands among them that have not ended. -/
structure Standing (g : Gateway) (o : Connection.Options) (arrived : List Arrival)
    (taken : List Taken) (delivered : List Delivery) (c : Connection) (past : List (List Bytes))
    (underway : List Taken) : Prop where
  /-- What has been heard is what was taken off the stream and what is before the reader. -/
  heard : ∀ later, Transcript.ofArrivals o.maxBuffer [] (arrived ++ later) =
    (c.outlook o later).after past
  /-- Every request has been answered, is under way or waits to be taken on. -/
  opened : Arranged o (past.map (Exchange.decode c.session))
    (delivered.filterMap Delivery.request? ++ underway.map (.ok ·.exchange) ++ c.reader.held)
  /-- Every command taken on has ended or is under way. -/
  ends : Arranged o taken (delivered.filterMap Delivery.taken? ++ underway)
  flights : List.Forall₂ (Taken.Flies g) underway c.flights
  stage : c.reader.Stage o underway
  /-- The client is told why the connection ends, once, if it is to be told. -/
  told : delivered.filterMap Delivery.farewell? = c.reader.told
  /-- Where the order is kept, this is the last that the client is told. -/
  parted : o.ordered = true → ∃ answers, (∀ d ∈ answers, d.farewell? = none) ∧
    delivered = answers ++ c.reader.told.map Delivery.farewell
  carried : c.writer.Carries (delivered.map Delivery.item)
  /-- The client can be written to. -/
  reached : c.writer.isLost = false
  /-- The outbox is let go of only when nobody will put anything in. -/
  released : c.writer.hasSenders = false → c.isFinished = true ∧ underway = []
  quits : c.reader.Quits delivered

theorem Connection.finish_silent {c : Connection} {why : Departure} (h : why.told = none) :
    c.finish why = { c with reader := .finished why } := by
  have hnone : why.trouble?.bind Trouble.reply? = none := h
  simp only [Connection.finish, hnone]

theorem Connection.finish_told {c : Connection} {why : Departure} {r : Reply}
    (h : why.told = some r) :
    c.finish why = { c.offer (.rejection r) with reader := .finished why } := by
  have hsome : why.trouble?.bind Trouble.reply? = some r := h
  simp only [Connection.finish, hsome]

theorem standing_init (g : Gateway) (o : Connection.Options) (session : UInt64) :
    Standing g o [] [] [] { session } [] [] where
  heard later := rfl
  opened := .refl _
  ends := .refl _
  flights := .nil
  stage := calm_nil o
  told := rfl
  parted _ := ⟨[], by simp, rfl⟩
  carried := Writer.carries_init session
  reached := rfl
  released h := by cases h
  quits := .of_noQuit (by simp [NoQuit]) (by simp)

namespace Standing

variable {g : Gateway} {o : Connection.Options} {arrived : List Arrival} {taken : List Taken}
  {delivered : List Delivery} {c : Connection} {past : List (List Bytes)} {underway : List Taken}

theorem heard_now (h : Standing g o arrived taken delivered c past underway) :
    Transcript.ofArrivals o.maxBuffer [] arrived = (c.outlook o []).after past := by
  have := h.heard []
  rwa [List.append_nil] at this

theorem requests_now (h : Standing g o arrived taken delivered c past underway) :
    (Transcript.ofArrivals o.maxBuffer [] arrived).requests =
      past ++ (c.outlook o []).requests := by
  rw [h.heard_now]
  rfl

theorem hasSenders (h : Standing g o arrived taken delivered c past underway)
    (hreader : c.reader = .reading) : c.writer.hasSenders = true := by
  cases hsenders : c.writer.hasSenders with
  | true => rfl
  | false =>
      have := (h.released hsenders).1
      simp [Connection.isFinished, hreader] at this

/-- Something reaches the server from the client. -/
theorem receive (h : Standing g o arrived taken delivered c past underway) (a : Arrival) :
    Standing g o (arrived ++ [a]) taken delivered { c with inbox := c.inbox ++ [a] } past
      underway :=
  { h with
    heard := by
      intro later
      rw [List.append_assoc, h.heard]
      unfold Connection.outlook
      cases c.reader with
      | awaiting ticket last => cases last <;> simp
      | _ => simp }

/-- A piece is read. -/
theorem read (h : Standing g o arrived taken delivered c past underway) {piece : Bytes}
    {inbox : List Arrival} (hreader : c.reader = .reading)
    (hd : Request.decode c.buffer = .incomplete) (hroom : ¬o.maxBuffer ≤ c.buffer.length)
    (hinbox : c.inbox = .bytes piece :: inbox) :
    Standing g o arrived taken delivered { c with inbox, buffer := c.buffer ++ piece } past
      underway :=
  { h with
    heard := by
      intro later
      rw [h.heard]
      simp only [Connection.outlook, hreader, hinbox]
      rw [Transcript.ofArrivals_incomplete hd, if_neg hroom]
      rfl }

/-- The outbox is not let go of while somebody may put something in it. -/
theorem kept_open {P : Prop} (hsenders : c.writer.hasSenders = true)
    (hs : c.writer.hasSenders = false) : P := by
  rw [hsenders] at hs
  cases hs

/-- A reader that has told the client as much has the same behind the answers. -/
theorem parted_told (h : Standing g o arrived taken delivered c past underway) {r : Reader}
    (hr : r.told = c.reader.told) (ho : o.ordered = true) :
    ∃ answers, (∀ d ∈ answers, d.farewell? = none) ∧
      delivered = answers ++ r.told.map Delivery.farewell := by
  rw [hr]
  exact h.parted ho

/-- The reader ends. -/
theorem finish (h : Standing g o arrived taken delivered c past underway) {inbox : List Arrival}
    {why : Departure} (hreader : c.reader = .reading) (hends : c.Ends o inbox why) :
    Standing g o arrived taken (delivered ++ (why.told.map Delivery.farewell).toList)
      ({ c with inbox }.finish why) past underway := by
  have hstage := h.stage
  have htold := h.told
  have hopened := h.opened
  rw [hreader] at hstage htold hopened
  have hquit : why ≠ .quit := by
    cases hends with
    | left => cases c.buffer.isEmpty <;> simp
    | _ => simp
  have hheard : ∀ later, Transcript.ofArrivals o.maxBuffer [] (arrived ++ later) =
      (Transcript.ended why).after past := by
    intro later
    rw [h.heard, Connection.outlook_ends hends hreader]
  have hsenders := h.hasSenders hreader
  have hnone : NoQuit delivered := h.quits.none_before (by rw [hreader]; simp)
  have hends' : Reader.finished why ≠ .finished .quit := fun heq => hquit (Reader.finished.inj heq)
  -- the two cases differ in one delivery: what the client is told
  cases hsaid : why.told with
  | none =>
      rw [Option.map_none, Option.toList_none, List.append_nil, Connection.finish_silent hsaid]
      exact
        { heard := hheard
          opened := hopened
          ends := h.ends
          flights := h.flights
          stage := ⟨hstage, fun hq => absurd hq hquit⟩
          told := by rw [htold, Reader.told, hsaid]; rfl
          parted := h.parted_told (by rw [hreader, Reader.told, hsaid]; rfl)
          carried := h.carried
          reached := h.reached
          released := kept_open hsenders
          quits := .of_noQuit hnone hends' }
  | some r =>
      rw [Option.map_some, Option.toList_some, Connection.finish_told hsaid]
      exact
        { heard := hheard
          opened := by
            rw [filterMap_concat_none rfl]
            exact hopened
          ends := by
            rw [filterMap_concat_none rfl]
            exact h.ends
          flights := h.flights
          stage := ⟨hstage, fun hq => absurd hq hquit⟩
          told := by
            rw [filterMap_concat_some (f := Delivery.farewell?) (b := r) rfl, htold]
            simp only [Reader.told, hsaid, Option.toList_some, List.nil_append]
          parted := by
            intro ho
            obtain ⟨answers, hanswers, rfl⟩ := h.parted ho
            refine ⟨answers, hanswers, ?_⟩
            simp [Reader.told, hsaid, hreader]
          carried := by
            rw [List.map_append]
            exact h.carried.offer hsenders _
          reached := h.reached
          released := kept_open hsenders
          quits := .of_noQuit (hnone.concat (by simp)) hends' }

/-! ### Requests -/

theorem calm (h : Standing g o arrived taken delivered c past underway)
    (hreader : c.reader = .reading) : Calm o underway := by
  have hstage := h.stage
  rw [hreader] at hstage
  exact hstage

theorem noQuit (h : Standing g o arrived taken delivered c past underway)
    (hreader : c.reader = .reading) : NoQuit delivered :=
  h.quits.none_before (by rw [hreader]; simp)

theorem opened_reading (h : Standing g o arrived taken delivered c past underway)
    (hreader : c.reader = .reading) :
    Arranged o (past.map (Exchange.decode c.session))
      (delivered.filterMap Delivery.request? ++ underway.map (.ok ·.exchange)) := by
  have hopened := h.opened
  rw [hreader, show Reader.reading.held = [] from rfl, List.append_nil] at hopened
  exact hopened

theorem heard_request (h : Standing g o arrived taken delivered c past underway)
    {arguments : List Bytes} {consumed : Nat} (hreader : c.reader = .reading)
    (hd : Request.decode c.buffer = .complete arguments consumed) (later : List Arrival) :
    Transcript.ofArrivals o.maxBuffer [] (arrived ++ later) =
      (if asksToQuit arguments then Transcript.ended .quit
        else .ofArrivals o.maxBuffer (c.buffer.drop consumed) (c.inbox ++ later)).after
          (past ++ [arguments]) := by
  rw [h.heard, Connection.outlook, hreader, ← Transcript.after_after]
  simp only [Transcript.ofArrivals_request hd]

theorem parted_concat (h : Standing g o arrived taken delivered c past underway) {d : Delivery}
    {r : Reader} (hd : d.farewell? = none) (htold : c.reader.told = [])
    (hr : r.told = c.reader.told) (ho : o.ordered = true) :
    ∃ answers, (∀ d' ∈ answers, d'.farewell? = none) ∧
      delivered ++ [d] = answers ++ r.told.map Delivery.farewell := by
  obtain ⟨answers, hanswers, hdelivered⟩ := h.parted ho
  refine ⟨answers ++ [d], ?_, ?_⟩
  · intro d' hd'
    rcases List.mem_append.mp hd' with hd' | hd'
    · exact hanswers d' hd'
    · rw [List.mem_singleton.mp hd']
      exact hd
  · rw [hr, htold]
    rw [htold] at hdelivered
    simpa using hdelivered

/-- A request is refused. -/
theorem refuse (h : Standing g o arrived taken delivered c past underway)
    {arguments : List Bytes} {consumed : Nat} {why : Exchange.Refusal}
    (hreader : c.reader = .reading) (hd : Request.decode c.buffer = .complete arguments consumed)
    (hx : Exchange.decode c.session arguments = .error why) :
    Standing g o arrived taken (delivered ++ [.refusal why])
      ({ c with buffer := c.buffer.drop consumed }.offer (.rejection why.reply))
      (past ++ [arguments]) underway where
  heard := by
    intro later
    rw [h.heard_request hreader hd, asksToQuit_of_error hx]
    simp only [Connection.outlook, Connection.offer, hreader]
    rfl
  opened := by
    -- the refusal goes in front of the commands under way: in ordered mode there are none
    have hfront := Arranged.to_front (o := o) (l := underway.map (.ok ·.exchange))
      (fun ho => by rw [(h.calm hreader).ordered ho]; rfl) (Except.error why)
    have hpast := (h.opened_reading hreader).append_right [.error why]
    rw [List.append_assoc] at hpast
    have hdone := hpast.trans (hfront.append_left _)
    rw [filterMap_concat_some (f := Delivery.request?) (b := .error why) rfl]
    simpa [Connection.offer, Reader.held, hreader, hx] using hdone
  ends := by
    rw [filterMap_concat_none rfl]
    exact h.ends
  flights := h.flights
  stage := h.stage
  told := by
    rw [filterMap_concat_none rfl]
    exact h.told
  parted := h.parted_concat rfl (by rw [hreader]; rfl) rfl
  carried := by
    rw [List.map_append]
    exact h.carried.offer (h.hasSenders hreader) _
  reached := h.reached
  released := kept_open (h.hasSenders hreader)
  quits := .of_noQuit ((h.noQuit hreader).concat (by simp)) (by
    change c.reader ≠ _
    rw [hreader]
    simp)

/-- The reader finds a last command. -/
theorem drain (h : Standing g o arrived taken delivered c past underway)
    {arguments : List Bytes} {consumed : Nat} {x : Exchange}
    (hreader : c.reader = .reading) (hd : Request.decode c.buffer = .complete arguments consumed)
    (hx : Exchange.decode c.session arguments = .ok x) (hquit : x.command = .quit) :
    Standing g o arrived taken delivered
      { c with buffer := c.buffer.drop consumed, reader := .draining x } (past ++ [arguments])
      underway :=
  { h with
    heard := by
      intro later
      rw [h.heard_request hreader hd, (asksToQuit_of_ok hx).mpr hquit]
      rfl
    opened := by
      rw [List.map_append, List.map_singleton, hx]
      exact (h.opened_reading hreader).append_right [.ok x]
    stage := ⟨hquit, h.calm hreader⟩
    told := by rw [h.told, hreader]; rfl
    parted := h.parted_told (by rw [hreader]; rfl)
    released := kept_open (h.hasSenders hreader)
    quits := .of_noQuit (h.noQuit hreader) (by simp) }

/-- The reader of a connection after it has taken on a command. -/
def readerFor (o : Connection.Options) (t : Taken) : Reader :=
  if o.ordered || t.exchange.command == .quit then
    .awaiting t.ticket (t.exchange.command == .quit)
  else .reading

/-- A command is taken on. -/
theorem takeOn (h : Standing g o arrived taken delivered c past underway)
    {arguments : List Bytes} {consumed : Nat} {t : Taken} {flight : Flight}
    (hreader : c.reader = .reading) (hd : Request.decode c.buffer = .complete arguments consumed)
    (hx : Exchange.decode c.session arguments = .ok t.exchange)
    (hquit : t.exchange.command ≠ .quit) (hflies : t.Flies g flight) :
    Standing g o arrived (taken ++ [t]) delivered
      { c with
        buffer := c.buffer.drop consumed
        flights := c.flights ++ [flight]
        reader := readerFor o t }
      (past ++ [arguments]) (underway ++ [t]) := by
  have hcalm := h.calm hreader
  have hnot : asksToQuit arguments = false := by
    cases hasks : asksToQuit arguments with
    | false => rfl
    | true => exact absurd ((asksToQuit_of_ok hx).mp hasks) hquit
  have hlast : (t.exchange.command == .quit) = false := by simpa using hquit
  have hnext : readerFor o t = if o.ordered then .awaiting t.ticket false else .reading := by
    rw [readerFor, hlast, Bool.or_false]
  have hheld : (readerFor o t).held = [] := by
    rw [hnext]
    cases o.ordered <;> rfl
  have htold : (readerFor o t).told = [] := by
    rw [hnext]
    cases o.ordered <;> rfl
  exact
    { heard := by
        intro later
        rw [h.heard_request hreader hd, hnot]
        simp only [Connection.outlook, hnext]
        cases o.ordered <;> rfl
      opened := by
        rw [hheld, List.append_nil, List.map_append, List.map_append, ← List.append_assoc,
          List.map_singleton, List.map_singleton, hx]
        exact (h.opened_reading hreader).append_right _
      ends := by
        rw [← List.append_assoc]
        exact h.ends.append_right [t]
      flights := List.rel_append h.flights (.cons hflies .nil)
      stage := by
        rw [hnext]
        cases hordered : o.ordered with
        | true =>
            refine ⟨t, by rw [hcalm.ordered hordered]; rfl, rfl, ?_⟩
            simp [hquit]
        | false =>
            refine ⟨?_, fun ho => absurd (hordered.symm.trans ho) Bool.false_ne_true⟩
            intro t' ht'
            rcases List.mem_append.mp ht' with ht' | ht'
            · exact hcalm.not_quit t' ht'
            · rw [List.mem_singleton.mp ht']
              exact hquit
      told := by rw [h.told, hreader, htold]; rfl
      parted := h.parted_told (by rw [htold, hreader]; rfl)
      carried := h.carried
      reached := h.reached
      released := kept_open (h.hasSenders hreader)
      quits := .of_noQuit (h.noQuit hreader) (by
        rw [hnext]
        cases o.ordered <;> simp) }

theorem underway_of_flights (h : Standing g o arrived taken delivered c past underway)
    (hflights : c.flights = []) : underway = [] := by
  have hall := h.flights
  rw [hflights] at hall
  exact List.forall₂_nil_right_iff.mp hall

/-- A last command is taken on. -/
theorem takeOnLast (h : Standing g o arrived taken delivered c past underway) {t : Taken}
    {flight : Flight} (hreader : c.reader = .draining t.exchange) (hflights : c.flights = [])
    (hflies : t.Flies g flight) :
    Standing g o arrived (taken ++ [t]) delivered
      { c with flights := c.flights ++ [flight], reader := readerFor o t } past [t] := by
  obtain rfl := h.underway_of_flights hflights
  have hquit : t.exchange.command = .quit := by
    have hstage := h.stage
    rw [hreader] at hstage
    exact hstage.1
  have hnext : readerFor o t = .awaiting t.ticket true := by simp [readerFor, hquit]
  rw [hnext, hflights]
  exact
    { heard := by
        intro later
        rw [h.heard, Connection.outlook, hreader]
        rfl
      opened := by
        have hopened := h.opened
        rw [hreader] at hopened
        simpa [Reader.held] using hopened
      ends := by simpa using h.ends.append_right [t]
      flights := .cons hflies .nil
      -- with nothing else under way it is alone in both modes
      stage := ⟨t, rfl, rfl, by simp [hquit]⟩
      told := by rw [h.told, hreader]; rfl
      parted := h.parted_told (by rw [hreader]; rfl)
      carried := h.carried
      reached := h.reached
      released := by
        intro hs
        have := (h.released hs).1
        simp [Connection.isFinished, hreader] at this
      quits := .of_noQuit (h.quits.none_before (by rw [hreader]; simp)) (by simp) }

/-! ### Ends -/

/-- A command under way was opened by a request of the client. -/
theorem opened_underway (h : Standing g o arrived taken delivered c past underway) {t : Taken}
    (ht : t ∈ underway) :
    ∃ arguments ∈ past, Exchange.decode c.session arguments = .ok t.exchange := by
  have hmem : (.ok t.exchange : Except Exchange.Refusal Exchange) ∈
      past.map (Exchange.decode c.session) := by
    refine h.opened.perm.mem_iff.mpr ?_
    refine List.mem_append_left _ (List.mem_append_right _ ?_)
    exact List.mem_map_of_mem ht
  obtain ⟨arguments, harguments, hdecode⟩ := List.mem_map.mp hmem
  exact ⟨arguments, harguments, hdecode⟩

/-- A delivery that answers a request answers one that has been heard. -/
theorem request_heard (h : Standing g o arrived taken delivered c past underway) {d : Delivery}
    (hd : d ∈ delivered) {r : Except Exchange.Refusal Exchange} (hr : d.request? = some r) :
    ∃ arguments ∈ past, Exchange.decode c.session arguments = r := by
  refine List.mem_map.mp (h.opened.perm.mem_iff.mpr ?_)
  refine List.mem_append_left _ (List.mem_append_left _ ?_)
  exact List.mem_filterMap.mpr ⟨d, hd, hr⟩

/-- A flight belongs to a command under way. -/
theorem flight_underway (h : Standing g o arrived taken delivered c past underway)
    {flight : Flight} (hf : flight ∈ c.flights) : ∃ t ∈ underway, t.Flies g flight :=
  Forall₂.mem_right h.flights hf

/-- Where the order is kept, a command under way is the only one. -/
theorem underway_alone (h : Standing g o arrived taken delivered c past underway)
    (ho : o.ordered = true) {t : Taken} (ht : t ∈ underway) : underway = [t] := by
  have hnone : Calm o underway → underway = [t] := by
    intro hcalm
    rw [hcalm.ordered ho] at ht
    cases ht
  have hstage := h.stage
  cases hreader : c.reader with
  | reading =>
      rw [hreader] at hstage
      exact hnone hstage
  | awaiting ticket last =>
      rw [hreader] at hstage
      obtain ⟨t', rfl, -, -⟩ := hstage
      rw [List.mem_singleton.mp ht]
  | draining x =>
      rw [hreader] at hstage
      exact hnone hstage.2
  | finished why =>
      rw [hreader] at hstage
      exact hnone hstage.1

theorem sending_of_underway (h : Standing g o arrived taken delivered c past underway) {t : Taken}
    (ht : t ∈ underway) : c.writer.hasSenders = true := by
  cases hsenders : c.writer.hasSenders with
  | true => rfl
  | false =>
      rw [(h.released hsenders).2] at ht
      cases ht

theorem untold_of_underway (h : Standing g o arrived taken delivered c past underway)
    (ho : o.ordered = true) {t : Taken} (ht : t ∈ underway) : c.reader.told = [] := by
  cases hreader : c.reader with
  | finished why =>
      have hstage := h.stage
      rw [hreader] at hstage
      rw [hstage.1.ordered ho] at ht
      cases ht
  | _ => rfl

/-- Without one command the others are still under way. -/
theorem stage_without (h : Standing g o arrived taken delivered c past underway) {t : Taken}
    (ht : t ∈ underway) :
    (c.reader.afterLanding t.ticket).Stage o (underway.filter (·.ticket != t.ticket)) := by
  have hcalm : Calm o underway → Calm o (underway.filter (·.ticket != t.ticket)) := by
    intro hcalm
    refine ⟨fun t' ht' => hcalm.not_quit t' (List.mem_of_mem_filter ht'), fun ho => ?_⟩
    rw [hcalm.ordered ho]
    rfl
  have hstage := h.stage
  cases hreader : c.reader with
  | reading =>
      rw [hreader] at hstage
      exact hcalm hstage
  | awaiting ticket last =>
      rw [hreader] at hstage
      obtain ⟨t', rfl, rfl, -⟩ := hstage
      obtain rfl := List.mem_singleton.mp ht
      have hnone : [t].filter (·.ticket != t.ticket) = [] := by simp
      rw [hnone, Reader.afterLanding, if_pos rfl]
      cases last with
      | true => exact ⟨calm_nil o, fun _ => rfl⟩
      | false => exact calm_nil o
  | draining x =>
      rw [hreader] at hstage
      exact ⟨hstage.1, hcalm hstage.2⟩
  | finished why =>
      rw [hreader] at hstage
      refine ⟨hcalm hstage.1, fun hwhy => ?_⟩
      rw [hstage.2 hwhy]
      rfl

/-- The reader ends with the reply to a `QUIT`, and no other reply is one. -/
theorem quits_land (h : Standing g o arrived taken delivered c past underway) {t : Taken}
    (ht : t ∈ underway) (y : Exchange) :
    (c.reader.afterLanding t.ticket).Quits (delivered ++ [.reply t y]) := by
  have hother : Calm o underway → c.reader ≠ .finished .quit →
      c.reader.Quits (delivered ++ [.reply t y]) := by
    intro hcalm hreader
    refine .of_noQuit ((h.quits.none_before hreader).concat ?_) hreader
    rintro t' y' heq
    cases heq
    exact hcalm.not_quit t ht
  have hstage := h.stage
  cases hreader : c.reader with
  | reading =>
      rw [hreader] at hstage hother
      exact hother hstage (by simp)
  | awaiting ticket last =>
      have hnone := h.quits.none_before (by rw [hreader]; simp)
      rw [hreader] at hstage
      obtain ⟨t', rfl, rfl, hlast⟩ := hstage
      obtain rfl := List.mem_singleton.mp ht
      rw [Reader.afterLanding, if_pos rfl]
      cases last with
      | true => exact ⟨fun hne => absurd rfl hne, fun _ => ⟨_, t, y, rfl, hlast.mp rfl, hnone⟩⟩
      | false =>
          refine .of_noQuit (hnone.concat ?_) (by simp)
          rintro t' y' heq
          cases heq
          exact fun hquit => Bool.false_ne_true (hlast.mpr hquit)
  | draining x =>
      rw [hreader] at hstage hother
      exact hother hstage.2 (by simp)
  | finished why =>
      rw [hreader] at hstage hother
      refine hother hstage.1 fun heq => ?_
      rw [hstage.2 (Reader.finished.inj heq)] at ht
      cases ht

/-- A command ends. -/
theorem land (h : Standing g o arrived taken delivered c past underway)
    (hnodup : (underway.map Taken.ticket).Nodup) {t : Taken} (ht : t ∈ underway) (y : Exchange) :
    Standing g o arrived taken (delivered ++ [.reply t y])
      { c with
        flights := c.flights.filter (·.ticket != t.ticket)
        reader := c.reader.afterLanding t.ticket
        writer := c.writer.offer (.reply y) }
      past (underway.filter (·.ticket != t.ticket)) := by
  obtain ⟨before, behind, hsplit, hothers⟩ := filter_ticket hnodup ht
  -- in ordered mode it is the only one under way, so nothing is passed over
  have hfirst : o.ordered = true → before = [] := by
    intro ho
    have halone := h.underway_alone ho ht
    rw [hsplit] at halone
    cases before with
    | nil => rfl
    | cons t' before => simp at halone
  have hheld : (c.reader.afterLanding t.ticket).held = c.reader.held ∧
      (c.reader.afterLanding t.ticket).told = c.reader.told := by
    rcases c.reader.afterLanding_cases t.ticket with hsame | ⟨last, hreader, hafter⟩
    · rw [hsame]
      exact ⟨rfl, rfl⟩
    · rw [hafter, hreader]
      cases last <;> exact ⟨rfl, rfl⟩
  exact
    { heard := by
        intro later
        rw [h.heard]
        congr 1
        simp only [Connection.outlook]
        rcases c.reader.afterLanding_cases t.ticket with hsame | ⟨last, hreader, hafter⟩
        · rw [hsame]
        · rw [hafter, hreader]
          cases last <;> rfl
      opened := by
        have hopened := h.opened
        rw [hsplit, List.map_append, List.map_cons] at hopened
        have hfront := Arranged.middle_to_front (o := o)
          (l := before.map fun t' => (.ok t'.exchange : Except Exchange.Refusal Exchange))
          (fun ho => by rw [hfirst ho]; rfl) (.ok t.exchange) (behind.map (.ok ·.exchange))
        have := hopened.trans ((hfront.append_left _).append_right _)
        rw [filterMap_concat_some (f := Delivery.request?) (b := .ok t.exchange) rfl, hothers,
          hheld.1, List.map_append]
        simpa only [List.append_assoc, List.singleton_append] using this
      ends := by
        have hends := h.ends
        rw [hsplit] at hends
        have := hends.trans ((Arranged.middle_to_front hfirst t behind).append_left _)
        rw [filterMap_concat_some (f := Delivery.taken?) (b := t) rfl, hothers]
        simpa only [List.append_assoc, List.singleton_append] using this
      flights := by
        refine List.rel_filter ?_ h.flights
        intro t' f hflies
        change (t'.ticket != t.ticket) = true ↔ (f.ticket != t.ticket) = true
        rw [hflies.1]
      stage := h.stage_without ht
      told := by
        rw [filterMap_concat_none rfl, h.told, hheld.2]
      parted := by
        intro ho
        exact h.parted_concat rfl (h.untold_of_underway ho ht) hheld.2 ho
      carried := by
        rw [List.map_append]
        exact h.carried.offer (h.sending_of_underway ht) _
      reached := h.reached
      released := kept_open (h.sending_of_underway ht)
      quits := h.quits_land ht y }

/-! ### The writer -/

/-- The writer goes a step on. -/
theorem write (h : Standing g o arrived taken delivered c past underway) {writer : Writer}
    (hstep : c.writer.step? = some writer) :
    Standing g o arrived taken delivered { c with writer } past underway :=
  { h with
    carried := h.carried.step hstep
    reached := (Writer.isLost_step hstep).trans h.reached
    released := by
      intro hs
      rw [Writer.hasSenders_step hstep] at hs
      exact h.released hs }

/-- The outbox is let go of. -/
theorem release (h : Standing g o arrived taken delivered c past underway)
    (hfinished : c.isFinished = true) (hflights : c.flights = []) :
    Standing g o arrived taken delivered { c with writer := c.writer.release } past underway :=
  { h with
    carried := h.carried.release
    released := fun _ => ⟨hfinished, h.underway_of_flights hflights⟩ }

/-- The end of the connection is made known. -/
theorem depart (h : Standing g o arrived taken delivered c past underway) :
    Standing g o arrived taken delivered { c with departed := true } past underway :=
  { h with }

end Standing

end RespGateway
