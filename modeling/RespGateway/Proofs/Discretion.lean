import Mathlib.Data.List.Forall2
import RespGateway.Proofs.Runs
import RespGateway.Script
import RespGateway.Server.Play

/-!
# What went wrong is not told

Two gateways are alike (`Gateway.Alike`) if their callees differ only in what they say about
what went wrong: in the reasons of failures, in the texts of crashes, in the reasons that the
cache gives, and in what an answer of the cache carries that is a failure all the same.

Gateways that are alike launch every command alike (`Gateway.Alike.launch`): they make the same
call, and the command ends at the same moment with the same reply, whatever the store is by then.
That is all that a server takes from its gateway, so two servers with such gateways go through
the same moves, step by step (`Server.Alike.perform`), and no client can tell them apart.
-/

namespace RespGateway

/-! ## Callees that differ in what they say -/

/-- Two calls end in one way, but for what they say about what went wrong. Of values that they
return, `R` says how they are related. -/
inductive Ending.Alike {ε α : Type} (R : α → α → Prop) : Ending ε α → Ending ε α → Prop where
  | returned {a b : α} : R a b → Alike R (.returned a) (.returned b)
  | failed (why why' : ε) : Alike R (.failed why) (.failed why')
  | crashed (text text' : String) : Alike R (.crashed text) (.crashed text')

/-- Two calls take the same time and end alike. -/
inductive Attempt.Alike {ε α : Type} (R : α → α → Prop) : Attempt ε α → Attempt ε α → Prop where
  | ends (delay : Nat) {ending ending' : Ending ε α} : ending.Alike R ending' →
      Alike R (.ends delay ending) (.ends delay ending')
  | hangs : Alike R .hangs .hangs

/-- Two answers of the cache that differ only in the reason they give and, if they are failures, in
what they carry. -/
structure Cache.Answer.Alike (a b : Cache.Answer) : Prop where
  status : b.status = a.status
  payload : a.status = .success → b.payload = a.payload

/-- What a source answers to a query, and the store after it. -/
def Backend.Source.answer (q : Cache.Query) (s : Store) : Backend.Source → Cache.Answer × Store
  | .store => s.answer q
  | .fixed answer => (answer, s)

/-- Two sources answer a query alike, and leave the same store behind. -/
def Backend.Source.Alike (q : Cache.Query) (source source' : Backend.Source) : Prop :=
  ∀ s, (source.answer q s).1.Alike (source'.answer q s).1 ∧
    (source'.answer q s).2 = (source.answer q s).2

/-- Two handlers that differ only in what they say about what went wrong. -/
structure Handler.Alike (h h' : Handler) : Prop where
  name : h'.name = h.name
  builtIn : h'.builtIn = h.builtIn
  act : ∀ ticket x, (h.act ticket x).Alike Eq (h'.act ticket x)

/-- Two gateways that differ only in what their callees say about what went wrong. -/
structure Gateway.Alike (g g' : Gateway) : Prop where
  limit : g'.limit = g.limit
  routes : ∀ command, Option.Rel Handler.Alike (g.routes.lookup command) (g'.routes.lookup command)
  backend : ∀ ticket q,
    (g.backend.act ticket q).Alike (Backend.Source.Alike q) (g'.backend.act ticket q)

/-! ## One command -/

/-- Two landings have the same reply and leave the same store behind, whatever it was before. -/
def Landing.EndsLike (l l' : Landing) : Prop := ∀ s, l'.land s = l.land s

/-- Two ends at the same moment, with the same reply and the same store. -/
inductive SameEnd : Moment × Landing → Moment × Landing → Prop where
  | at (moment : Moment) {l l' : Landing} : l.EndsLike l' → SameEnd (moment, l) (moment, l')

/-- Two launches with the same call and the same end. -/
structure Launch.Alike (a b : Launch) : Prop where
  call : b.call = a.call
  outcome : Option.Rel SameEnd a.outcome b.outcome

theorem Landing.EndsLike.refl (l : Landing) : l.EndsLike l := fun _ => rfl

theorem SameEnd.refl (e : Moment × Landing) : SameEnd e e := .at e.1 (.refl e.2)

/-- The courses of calls that are alike under one limit. -/
inductive Course.Alike {ε α : Type} (R : α → α → Prop) : Course ε α → Course ε α → Prop where
  | withheld : Alike R .withheld .withheld
  | ended (after : Nat) {ending ending' : Ending ε α} : ending.Alike R ending' →
      Alike R (.ended after ending) (.ended after ending')
  | late (after : Nat) : Alike R (.late after) (.late after)
  | endless : Alike R .endless .endless

theorem Attempt.Alike.course {ε α : Type} {R : α → α → Prop} {a b : Attempt ε α} (h : a.Alike R b)
    (limit : Option Nat) : (a.course limit).Alike R (b.course limit) := by
  rcases limit with _ | _ | n
  · cases h with
    | ends delay hending => exact .ended delay hending
    | hangs => exact .endless
  · exact .withheld
  · cases h with
    | ends delay hending =>
        rw [Attempt.course, Attempt.course]
        split
        · exact .ended delay hending
        · exact .late (n + 1)
    | hangs => exact .late (n + 1)

/-- What a handler hands back tells nothing of what went wrong. -/
theorem Ending.Alike.handedBack {e e' : Ending Handler.Failure Exchange} (h : e.Alike Eq e')
    (x : Exchange) : Gateway.handedBack x e' = Gateway.handedBack x e := by
  cases h with
  | returned hsame => rw [hsame]
  | failed => rfl
  | crashed => rfl

/-- The reply to a command tells nothing of why the cache failed. -/
theorem Cache.Answer.Alike.reply {a b : Cache.Answer} (h : a.Alike b) (command : Command) :
    b.reply command = a.reply command := by
  obtain ⟨status, payload, error⟩ := a
  obtain ⟨status', payload', error'⟩ := b
  obtain rfl : status' = status := h.status
  cases status' with
  | failed => rfl
  | success =>
      obtain rfl : payload' = payload := h.payload rfl
      rfl

/-- A source that is asked when the command ends. -/
theorem served_land (x : Exchange) (q : Cache.Query) (source : Backend.Source) (s : Store) :
    (Gateway.served x q (.returned source)).land s =
      (x.respond ((source.answer q s).1.reply x.command), (source.answer q s).2) := by
  cases source <;> rfl

theorem Ending.Alike.served {q : Cache.Query} {e e' : Ending Backend.Unavailable Backend.Source}
    (h : e.Alike (Backend.Source.Alike q) e') (x : Exchange) :
    (Gateway.served x q e).EndsLike (Gateway.served x q e') := by
  cases h with
  | failed => exact .refl _
  | crashed => exact .refl _
  | returned hsources =>
      -- one may leave the query to the store where the other knows that it will fail: the landings
      -- are not the same then, but they end alike
      intro s
      obtain ⟨hanswer, hstore⟩ := hsources s
      rw [served_land, served_land, hanswer.reply, hstore]

namespace Gateway.Alike

variable {g g' : Gateway}

theorem launchHandler (h : g.Alike g') {handler handler' : Handler}
    (hhandlers : handler.Alike handler') (ticket : Nat) (x : Exchange) :
    (g.launchHandler handler ticket x).Alike (g'.launchHandler handler' ticket x) := by
  have hcourse := (hhandlers.act ticket x).course g.limit
  unfold Gateway.launchHandler
  rw [h.limit, hhandlers.name, hhandlers.builtIn]
  generalize (handler.act ticket x).course g.limit = course at hcourse ⊢
  generalize (handler'.act ticket x).course g.limit = course' at hcourse ⊢
  cases hcourse with
  | withheld => exact ⟨rfl, .some (.refl _)⟩
  | late after => exact ⟨rfl, .some (.refl _)⟩
  | endless => exact ⟨rfl, .none⟩
  | ended after hending =>
      refine ⟨rfl, .some ?_⟩
      rw [hending.handedBack]
      exact .refl _

theorem launchQuery (h : g.Alike g') (q : Cache.Query) (ticket : Nat) (x : Exchange) :
    (g.launchQuery q ticket x).Alike (g'.launchQuery q ticket x) := by
  have hcourse := (h.backend ticket q).course g.limit
  unfold Gateway.launchQuery
  rw [h.limit]
  generalize (g.backend.act ticket q).course g.limit = course at hcourse ⊢
  generalize (g'.backend.act ticket q).course g.limit = course' at hcourse ⊢
  cases hcourse with
  | withheld => exact ⟨rfl, .some (.refl _)⟩
  | late after => exact ⟨rfl, .some (.refl _)⟩
  | endless => exact ⟨rfl, .none⟩
  | ended after hending => exact ⟨rfl, .some (.at _ (hending.served x))⟩

/-- **Gateways that are alike launch every command alike.** -/
theorem launch (h : g.Alike g') (ticket : Nat) (x : Exchange) :
    (g.launch ticket x).Alike (g'.launch ticket x) := by
  have hroutes := h.routes x.command
  unfold Gateway.launch
  generalize g.routes.lookup x.command = route at hroutes ⊢
  generalize g'.routes.lookup x.command = route' at hroutes ⊢
  cases hroutes with
  | some hhandlers => exact h.launchHandler hhandlers ticket x
  | none =>
      cases x.query? with
      | some q => exact h.launchQuery q ticket x
      | none => exact ⟨rfl, .some (.refl _)⟩

end Gateway.Alike

/-! ## The gateway at work -/

/-- Two gateways launch every command alike. -/
def Gateway.SameLaunches (g g' : Gateway) : Prop :=
  ∀ ticket x, (g.launch ticket x).Alike (g'.launch ticket x)

/-- Two commands under way with one ticket and the same end. -/
structure Flight.Alike (f f' : Flight) : Prop where
  ticket : f'.ticket = f.ticket
  outcome : Option.Rel SameEnd f.outcome f'.outcome

namespace Gateway.State

variable {g g' : Gateway} {l l' : Landing}

theorem launch_alike (h : g.SameLaunches g') (now : Nat) (x : Exchange) (st : State) :
    (st.launch g now x).1.Alike (st.launch g' now x).1 ∧
      (st.launch g' now x).2 = (st.launch g now x).2 := by
  obtain ⟨hcall, houtcome⟩ := h st.tickets x
  rw [launch, launch]
  dsimp only
  generalize (g.launch st.tickets x).outcome = outcome at houtcome ⊢
  generalize (g'.launch st.tickets x).outcome = outcome' at houtcome ⊢
  refine ⟨⟨rfl, ?_⟩, by rw [hcall]⟩
  cases houtcome with
  | none => exact .none
  | some hend =>
      obtain ⟨moment, hlanding⟩ := hend
      exact .some (.at _ hlanding)

theorem land_alike (h : l.EndsLike l') (st : State) : st.land l' = st.land l := by
  rw [land, land, h]

theorem deliver_alike (h : l.EndsLike l') (st : State) (o : Outbox) :
    st.deliver l' o = st.deliver l o := by
  rw [deliver, deliver, land_alike h]

/-- One command after another has the same reply, and makes the same calls and the same changes. -/
theorem process_alike (h : g.SameLaunches g') (x : Exchange) (st : State) :
    st.process g' x = st.process g x := by
  obtain ⟨⟨-, houtcome⟩, hstate⟩ := launch_alike h 0 x st
  unfold process
  generalize st.launch g 0 x = launched at houtcome hstate ⊢
  generalize st.launch g' 0 x = launched' at houtcome hstate ⊢
  obtain ⟨⟨ticket, outcome⟩, now⟩ := launched
  obtain ⟨⟨ticket', outcome'⟩, now'⟩ := launched'
  obtain rfl : now' = now := hstate
  cases houtcome with
  | none => rfl
  | some hend =>
      obtain ⟨moment, hlanding⟩ := hend
      dsimp only
      rw [land_alike hlanding]

end Gateway.State

/-! ## Options and lists of things that are alike -/

section Lists

variable {α β : Type} {R : α → α → Prop} {S : β → β → Prop}

theorem rel_bind {o o' : Option α} (h : Option.Rel R o o') {f f' : α → Option β}
    (hf : ∀ a b, R a b → Option.Rel S (f a) (f' b)) : Option.Rel S (o.bind f) (o'.bind f') := by
  cases h with
  | none => exact .none
  | some hab => exact hf _ _ hab

theorem rel_findSome? {f f' : α → Option β} (h : ∀ a, Option.Rel S (f a) (f' a)) (l : List α) :
    Option.Rel S (l.findSome? f) (l.findSome? f') := by
  induction l with
  | nil => exact .none
  | cons a l ih =>
      have ha := h a
      rw [List.findSome?_cons, List.findSome?_cons]
      generalize f a = o at ha ⊢
      generalize f' a = o' at ha ⊢
      cases ha with
      | none => exact ih
      | some hab => exact .some hab

theorem forall₂_getElem? {l l' : List α} (h : List.Forall₂ R l l') (i : Nat) :
    Option.Rel R l[i]? l'[i]? := by
  induction h generalizing i with
  | nil => exact .none
  | cons hab _ ih =>
      cases i with
      | zero => exact .some hab
      | succ i => exact ih i

theorem forall₂_set {l l' : List α} (h : List.Forall₂ R l l') {a b : α} (hab : R a b) (i : Nat) :
    List.Forall₂ R (l.set i a) (l'.set i b) := by
  induction h generalizing i with
  | nil => exact .nil
  | cons hcd htail ih =>
      cases i with
      | zero => exact .cons hab htail
      | succ i => exact .cons hcd (ih i)

theorem forall₂_concat {l l' : List α} (h : List.Forall₂ R l l') {a b : α} (hab : R a b) :
    List.Forall₂ R (l ++ [a]) (l' ++ [b]) := List.rel_append h (.cons hab .nil)

end Lists

section Flights

variable {flights flights' : List Flight}

theorem find?_alike (h : List.Forall₂ Flight.Alike flights flights') (ticket : Nat) :
    Option.Rel Flight.Alike (flights.find? (·.ticket == ticket))
      (flights'.find? (·.ticket == ticket)) := by
  induction h with
  | nil => exact .none
  | cons hf _ ih =>
      rw [List.find?_cons, List.find?_cons, hf.ticket]
      split
      · exact .some hf
      · exact ih

theorem filter_alike (h : List.Forall₂ Flight.Alike flights flights') (ticket : Nat) :
    List.Forall₂ Flight.Alike (flights.filter (·.ticket != ticket))
      (flights'.filter (·.ticket != ticket)) := by
  refine List.rel_filter (fun f f' hf => ?_) h
  dsimp only
  rw [hf.ticket]

/-- Which commands under way end by a time, and when they do, is the same. -/
theorem dues_alike (h : List.Forall₂ Flight.Alike flights flights') (horizon i : Nat) :
    (flights.filterMap fun f => f.outcome.bind fun (m, _) =>
        if m.time ≤ horizon then some (m, i, f.ticket) else none) =
      flights'.filterMap fun f => f.outcome.bind fun (m, _) =>
        if m.time ≤ horizon then some (m, i, f.ticket) else none := by
  rw [← List.forall₂_eq_eq_eq]
  refine List.rel_filterMap (fun f f' hf => rel_bind hf.outcome fun e e' hend => ?_) h
  obtain ⟨moment, -⟩ := hend
  dsimp only
  rw [hf.ticket]
  split
  · exact .some rfl
  · exact .none

theorem isEmpty_alike (h : List.Forall₂ Flight.Alike flights flights') :
    flights'.isEmpty = flights.isEmpty := by
  cases h <;> rfl

end Flights

/-! ## Servers -/

/-- Two connections that are the same, but for how the ends of their commands are written down. -/
inductive Connection.Alike (c : Connection) : Connection → Prop where
  | of_flights {flights : List Flight} : List.Forall₂ Flight.Alike c.flights flights →
      Alike c { c with flights }

theorem Connection.Alike.finish {c c' : Connection} (h : c.Alike c') (why : Departure) :
    (c.finish why).Alike (c'.finish why) := by
  obtain ⟨hflights⟩ := h
  unfold Connection.finish
  dsimp only
  cases why.trouble?.bind Trouble.reply? with
  | none => exact .of_flights hflights
  | some r => exact .of_flights hflights

namespace Server

/-- Two servers that are the same, but for what their gateways would say about what went wrong. -/
inductive Alike (s : Server) : Server → Prop where
  | of_launches {gateway : Gateway} {connections : List Connection} :
      s.gateway.SameLaunches gateway → List.Forall₂ Connection.Alike s.connections connections →
      Alike s { s with gateway, connections }

namespace Alike

variable {s s' : Server} {c c' : Connection}

theorem connection (h : s.Alike s') (i : Nat) :
    Option.Rel Connection.Alike s.connections[i]? s'.connections[i]? := by
  obtain ⟨-, hconnections⟩ := h
  exact forall₂_getElem? hconnections i

theorem length (h : s.Alike s') : s'.connections.length = s.connections.length := by
  obtain ⟨-, hconnections⟩ := h
  exact hconnections.length_eq.symm

/-! ### What happens from outside -/

theorem accept (h : s.Alike s') : s.accept.Alike s'.accept := by
  have hlength := h.length
  obtain ⟨hlaunches, hconnections⟩ := h
  unfold Server.accept
  dsimp only at hlength ⊢
  rw [hlength]
  exact .of_launches hlaunches (forall₂_concat hconnections (.of_flights .nil))

theorem withConnection (h : s.Alike s') (hc : c.Alike c') (i : Nat) :
    (s.withConnection i c).Alike (s'.withConnection i c') := by
  obtain ⟨hlaunches, hconnections⟩ := h
  exact .of_launches hlaunches (forall₂_set hconnections hc i)

theorem receive (h : s.Alike s') (i : Nat) (a : Arrival) :
    (s.receive i a).Alike (s'.receive i a) := by
  have hc := h.connection i
  unfold Server.receive
  generalize s.connections[i]? = found at hc ⊢
  generalize s'.connections[i]? = found' at hc ⊢
  cases hc with
  | none => exact h
  | some hc =>
      obtain ⟨hflights⟩ := hc
      refine h.withConnection ?_ i
      exact .of_flights hflights

/-! ### Moves -/

theorem takeOn (h : s.Alike s') (hc : c.Alike c') (i : Nat) (x : Exchange) :
    (s.takeOn i c x).Alike (s'.takeOn i c' x) := by
  obtain ⟨hlaunches, hconnections⟩ := h
  obtain ⟨hflights⟩ := hc
  obtain ⟨hflight, hwork⟩ := Gateway.State.launch_alike hlaunches s.clock x s.work
  unfold Server.takeOn
  dsimp only
  rw [hwork, hflight.ticket]
  exact .of_launches hlaunches
    (forall₂_set hconnections (.of_flights (forall₂_concat hflights hflight)) i)

theorem handle (h : s.Alike s') (hc : c.Alike c') (i : Nat) (args : List Bytes) :
    (s.handle i c args).Alike (s'.handle i c' args) := by
  obtain ⟨hlaunches, hconnections⟩ := h
  obtain ⟨hflights⟩ := hc
  unfold Server.handle
  dsimp only
  cases Exchange.decode c.session args with
  | error refusal =>
      refine .of_launches hlaunches (forall₂_set hconnections ?_ i)
      exact .of_flights hflights
  | ok x =>
      dsimp only
      split
      · refine .of_launches hlaunches (forall₂_set hconnections ?_ i)
        exact .of_flights hflights
      · exact takeOn (.of_launches hlaunches hconnections) (.of_flights hflights) i x

theorem readArrival? (h : s.Alike s') (hc : c.Alike c') (i : Nat) :
    Option.Rel Alike (s.readArrival? i c) (s'.readArrival? i c') := by
  obtain ⟨hflights⟩ := hc
  unfold Server.readArrival?
  dsimp only
  split
  · exact .none
  · obtain ⟨hlaunches, hconnections⟩ := h
    refine .some (.of_launches hlaunches (forall₂_set hconnections ?_ i))
    exact .of_flights hflights
  · refine .some (h.withConnection (.finish ?_ _) i)
    exact .of_flights hflights
  · refine .some (h.withConnection (.finish ?_ _) i)
    exact .of_flights hflights

theorem stepReader? (h : s.Alike s') (hc : c.Alike c') (i : Nat) :
    Option.Rel Alike (s.stepReader? i c) (s'.stepReader? i c') := by
  have hoptions : s'.options = s.options := by
    obtain ⟨-, -⟩ := h
    rfl
  have hread := h.readArrival? hc i
  -- the reader, its buffer and the options are the same, so both take the same branch
  obtain ⟨session, inbox, buffer, reader, flights, writer, departed⟩ := c
  obtain ⟨hflights⟩ := hc
  unfold Server.stepReader?
  rw [hoptions]
  cases reader with
  | reading =>
      dsimp only at hread ⊢
      cases Request.decode buffer with
      | complete args consumed =>
          refine .some (h.handle ?_ i args)
          exact .of_flights hflights
      | malformed fault => exact .some (h.withConnection (.finish (.of_flights hflights) _) i)
      | incomplete =>
          dsimp only
          split
          · exact .some (h.withConnection (.finish (.of_flights hflights) _) i)
          · exact hread
  | draining farewell =>
      dsimp only
      rw [isEmpty_alike hflights]
      split
      · exact .some (h.takeOn (.of_flights hflights) i farewell)
      · exact .none
  | awaiting => exact .none
  | finished => exact .none

theorem land? (h : s.Alike s') (hc : c.Alike c') (i ticket : Nat) :
    Option.Rel Alike (s.land? i c ticket) (s'.land? i c' ticket) := by
  obtain ⟨hlaunches, hconnections⟩ := h
  obtain ⟨hflights⟩ := hc
  have hend := rel_bind (find?_alike hflights ticket) fun _ _ hf => hf.outcome
  unfold Server.land?
  dsimp only
  generalize (c.flights.find? (·.ticket == ticket)).bind (·.outcome) = found at hend ⊢
  rename_i gateway connections flights
  generalize (flights.find? (·.ticket == ticket)).bind (·.outcome) = found' at hend ⊢
  cases hend with
  | none => exact .none
  | some hend =>
      obtain ⟨moment, hlanding⟩ := hend
      dsimp only
      rw [Gateway.State.deliver_alike hlanding]
      refine .some (.of_launches hlaunches (forall₂_set hconnections ?_ i))
      exact .of_flights (filter_alike hflights ticket)

theorem stepWriter? (h : s.Alike s') (hc : c.Alike c') (i : Nat) :
    Option.Rel Alike (s.stepWriter? i c) (s'.stepWriter? i c') := by
  obtain ⟨hlaunches, hconnections⟩ := h
  obtain ⟨hflights⟩ := hc
  unfold Server.stepWriter?
  dsimp only
  cases c.writer.step? with
  | none => exact .none
  | some writer =>
      refine .some (.of_launches hlaunches (forall₂_set hconnections ?_ i))
      exact .of_flights hflights

theorem release? (h : s.Alike s') (hc : c.Alike c') (i : Nat) :
    Option.Rel Alike (s.release? i c) (s'.release? i c') := by
  obtain ⟨hflights⟩ := hc
  unfold Server.release?
  rw [isEmpty_alike hflights]
  split <;> split
  · refine .some (h.withConnection ?_ i)
    exact .of_flights hflights
  · contradiction
  · contradiction
  · exact .none

theorem depart? (h : s.Alike s') (hc : c.Alike c') (i : Nat) :
    Option.Rel Alike (s.depart? i c) (s'.depart? i c') := by
  obtain ⟨hlaunches, hconnections⟩ := h
  obtain ⟨hflights⟩ := hc
  unfold Server.depart?
  dsimp only
  cases c.reader with
  | finished why =>
      dsimp only
      split
      · refine .some (.of_launches hlaunches (forall₂_set hconnections ?_ i))
        exact .of_flights hflights
      · exact .none
  | reading => exact .none
  | awaiting => exact .none
  | draining => exact .none

/-- **A move is possible in both of two servers that are alike or in neither**, and they are alike
after it. -/
theorem perform? (h : s.Alike s') (m : Move) :
    Option.Rel Alike (s.perform? m) (s'.perform? m) := by
  cases m with
  | reader i => exact rel_bind (h.connection i) fun _ _ hc => h.stepReader? hc i
  | land i ticket => exact rel_bind (h.connection i) fun _ _ hc => h.land? hc i ticket
  | writer i => exact rel_bind (h.connection i) fun _ _ hc => h.stepWriter? hc i
  | release i => exact rel_bind (h.connection i) fun _ _ hc => h.release? hc i
  | depart i => exact rel_bind (h.connection i) fun _ _ hc => h.depart? hc i

/-! ### Runs -/

theorem happen? (h : s.Alike s') (e : Happening) :
    Option.Rel Alike (s.happen? e) (s'.happen? e) := by
  cases e with
  | accept => exact .some h.accept
  | move m => exact h.perform? m
  | receive i a =>
      unfold Server.happen?
      dsimp only
      rw [h.length]
      split
      · exact .some (h.receive i a)
      · exact .none

/-- **A run is possible in both of two servers that are alike or in neither**, and they are alike
after it. -/
theorem follow? (h : s.Alike s') (run : List Happening) :
    Option.Rel Alike (s.follow? run) (s'.follow? run) := by
  induction run generalizing s s' with
  | nil => exact .some h
  | cons e run ih =>
      rw [Server.follow?, Server.follow?, List.foldlM_cons, List.foldlM_cons]
      exact rel_bind (h.happen? e) fun _ _ h => ih h

/-! ### Letting time pass -/

theorem effort (h : s.Alike s') : s'.effort = s.effort := by
  obtain ⟨-, hconnections⟩ := h
  unfold Server.effort
  dsimp only
  generalize s.connections = known at hconnections ⊢
  induction hconnections with
  | nil => rfl
  | cons hc _ ih =>
      obtain ⟨hflights⟩ := hc
      rw [total, total, ih, connectionEffort, connectionEffort, hflights.length_eq]

theorem dueBy (h : s.Alike s') (horizon : Nat) : s'.dueBy horizon = s.dueBy horizon := by
  obtain ⟨-, hconnections⟩ := h
  unfold Server.dueBy
  dsimp only
  generalize s.connections = known at hconnections ⊢
  -- connections are numbered from zero, those behind the first from one, and so on
  generalize 0 = k
  induction hconnections generalizing k with
  | nil => rfl
  | cons hc _ ih =>
      obtain ⟨hflights⟩ := hc
      rw [List.zipIdx_cons, List.zipIdx_cons, List.flatMap_cons, List.flatMap_cons, ih]
      congr 1
      exact (dues_alike hflights horizon k).symm

theorem nextLanding? (h : s.Alike s') (horizon : Nat) :
    s'.nextLanding? horizon = s.nextLanding? horizon := by
  rw [Server.nextLanding?, Server.nextLanding?, h.dueBy]

theorem next? (h : s.Alike s') (horizon : Nat) :
    Option.Rel Alike (s.next? horizon) (s'.next? horizon) := by
  unfold Server.next?
  rw [h.length, h.nextLanding?]
  exact rel_findSome? h.perform? _

theorem run (h : s.Alike s') (horizon fuel : Nat) :
    (s.run horizon fuel).Alike (s'.run horizon fuel) := by
  induction fuel generalizing s s' with
  | zero => exact h
  | succ fuel ih =>
      have hnext := h.next? horizon
      rw [Server.run, Server.run]
      generalize s.next? horizon = next at hnext ⊢
      generalize s'.next? horizon = next' at hnext ⊢
      cases hnext with
      | none => exact h
      | some hnext => exact ih hnext

theorem elapse (h : s.Alike s') (period : Nat) : (s.elapse period).Alike (s'.elapse period) := by
  have hclock : s'.clock = s.clock := by
    obtain ⟨-, -⟩ := h
    rfl
  have hrun := h.run (s.clock + period) s.effort
  unfold Server.elapse
  rw [h.effort, hclock]
  dsimp only
  generalize s.run (s.clock + period) s.effort = now at hrun ⊢
  generalize s'.run (s.clock + period) s.effort = now' at hrun ⊢
  obtain ⟨hlaunches, hconnections⟩ := hrun
  exact .of_launches hlaunches hconnections

/-! ### What is seen -/

/-- What does not depend on the ends of commands under way is the same. -/
theorem seen {α : Type} (h : s.Alike s') (i : Nat) (f : Option Connection → α)
    (hf : ∀ (c : Connection) flights, f (some { c with flights }) = f (some c)) :
    f s'.connections[i]? = f s.connections[i]? := by
  have hc := h.connection i
  generalize s.connections[i]? = found at hc ⊢
  generalize s'.connections[i]? = found' at hc ⊢
  cases hc with
  | none => rfl
  | some hc =>
      obtain ⟨-⟩ := hc
      exact hf ..

theorem received (h : s.Alike s') (i : Nat) : s'.received i = s.received i :=
  h.seen i (fun found => (found.map fun (c : Connection) => c.writer.sent).getD []) fun _ _ => rfl

theorem isClosed (h : s.Alike s') (i : Nat) : s'.isClosed i = s.isClosed i :=
  h.seen i (fun found => found.any Connection.isClosed) fun _ _ => rfl

theorem isGone (h : s.Alike s') (i : Nat) : s'.isGone i = s.isGone i :=
  h.seen i (fun found => found.all fun (c : Connection) => c.isClosed || c.isBroken) fun _ _ => rfl

theorem readers (h : s.Alike s') :
    s'.connections.map (·.reader) = s.connections.map (·.reader) := by
  obtain ⟨-, hconnections⟩ := h
  dsimp only
  generalize s.connections = known at hconnections ⊢
  induction hconnections with
  | nil => rfl
  | cons hc _ ih =>
      obtain ⟨-⟩ := hc
      rw [List.map_cons, List.map_cons, ih]

end Alike

/-- No client can tell two servers apart, nor can anybody who looks at the store. -/
structure Indistinguishable (s s' : Server) : Prop where
  /-- Every client has received the same. -/
  received : ∀ i, s'.received i = s.received i
  /-- The same connections have been closed. -/
  closed : ∀ i, s'.isClosed i = s.isClosed i
  /-- The readers stand where the others stand, and have ended for the same reasons. -/
  readers : s'.connections.map (·.reader) = s.connections.map (·.reader)
  /-- The same has been made known. -/
  events : s'.events = s.events
  tally : s'.tally = s.tally
  clock : s'.clock = s.clock
  /-- The store is the same, and so are the calls that were made. -/
  work : s'.work = s.work

theorem Alike.indistinguishable {s s' : Server} (h : s.Alike s') : s.Indistinguishable s' := by
  have hreceived := h.received
  have hclosed := h.isClosed
  have hreaders := h.readers
  obtain ⟨-, -⟩ := h
  exact ⟨hreceived, hclosed, hreaders, rfl, rfl, rfl, rfl⟩

/-! ## Plays -/

/-- Two actions with one report, after which the servers are alike, or with one halt. -/
inductive SamePlay : Except Halt (Option Report × Server) → Except Halt (Option Report × Server) →
    Prop where
  | halted (halt : Halt) : SamePlay (.error halt) (.error halt)
  | played (report : Option Report) {s s' : Server} : s.Alike s' →
      SamePlay (.ok (report, s)) (.ok (report, s'))

namespace Alike

variable {s s' now now' : Server}

theorem report (h : s.Alike s') (hnow : now.Alike now') (client : Nat) :
    report client s' now' = report client s now := by
  have hnow' := hnow.indistinguishable
  rw [Server.report, Server.report, hnow.received, hnow.isClosed, h.received,
    h.indistinguishable.events, hnow'.events, hnow'.tally, hnow'.work]

theorem receiveAll (h : s.Alike s') (client : Nat) (groups : List (List Arrival)) :
    (receiveAll client groups s).Alike (receiveAll client groups s') := by
  induction groups generalizing s s' with
  | nil => exact h
  | cons group groups ih =>
      have hgroup : (group.foldl (fun s a => s.receive client a) s).Alike
          (group.foldl (fun s a => s.receive client a) s') := by
        induction group generalizing s s' with
        | nil => exact h
        | cons a group ih => exact ih (h.receive client a)
      have hday := hgroup.elapse day
      rw [Server.receiveAll, Server.receiveAll, hday.isGone]
      split
      · exact hday
      · exact ih hday

theorem act (h : s.Alike s') (client : Nat) (groups : List (List Arrival)) :
    SamePlay (s.act client groups) (s'.act client groups) := by
  have hnow := h.receiveAll client groups
  unfold Server.act
  rw [h.length, h.isGone]
  split
  · exact .halted _
  · split
    · exact .played none h
    · dsimp only
      rw [h.report hnow]
      exact .played _ hnow

theorem playAction (h : s.Alike s') (reachable : Bool) (action : Action) :
    SamePlay (s.playAction reachable action) (s'.playAction reachable action) := by
  cases action with
  | connect =>
      have hnow := h.accept.elapse day
      unfold Server.playAction
      dsimp only
      rw [h.length, h.report hnow]
      split
      · exact .played _ hnow
      · exact .halted _
  | send client data last => exact h.act client _
  | endInput client => exact h.act client _
  | reset client => exact h.act client _

/-- **A play has the same reports on two servers that are alike**, and comes to the same halt. -/
theorem play (h : s.Alike s') (reachable : Bool) (actions : List Action) :
    s'.play reachable actions = s.play reachable actions := by
  induction actions generalizing s s' with
  | nil => rfl
  | cons action actions ih =>
      have haction := h.playAction reachable action
      rw [Server.play, Server.play]
      generalize s.playAction reachable action = played at haction ⊢
      generalize s'.playAction reachable action = played' at haction ⊢
      cases haction with
      | halted halt => rfl
      | played report hnow =>
          dsimp only
          rw [ih hnow]

end Alike

theorem alike_start {g g' : Gateway} (h : g.SameLaunches g') (o : Connection.Options)
    (store : Store) : (start g o store).Alike (start g' o store) := .of_launches h .nil

end Server

/-! ## Gateways that nobody can tell apart -/

/-- **What went wrong is not told.** Gateways that differ only in what their callees say about what
went wrong give every exchange the same reply, with the same calls and the same store; and servers
with such gateways can do the same, whatever clients do and whatever comes first, and cannot be
told apart by what clients receive, by when and why their connections end or by the store. -/
theorem failures_untold {g g' : Gateway} (h : g.Alike g') :
    (∀ (st : Gateway.State) (x : Exchange), st.process g' x = st.process g x) ∧
    (∀ (o : Connection.Options) (store : Store) (run : List Server.Happening),
      Option.Rel Server.Indistinguishable ((Server.start g o store).follow? run)
        ((Server.start g' o store).follow? run)) ∧
    ∀ (o : Connection.Options) (store : Store) (reachable : Bool) (actions : List Server.Action),
      (Server.start g' o store).play reachable actions =
        (Server.start g o store).play reachable actions := by
  have hlaunches : g.SameLaunches g' := h.launch
  refine ⟨fun st x => Gateway.State.process_alike hlaunches x st, fun o store run => ?_,
    fun o store => (Server.alike_start hlaunches o store).play⟩
  have hrun := (Server.alike_start hlaunches o store).follow? run
  generalize (Server.start g o store).follow? run = reached at hrun ⊢
  generalize (Server.start g' o store).follow? run = reached' at hrun ⊢
  cases hrun with
  | none => exact .none
  | some halike => exact .some halike.indistinguishable

/-- A gateway whose callees fail and crash with a text, and whose cache fails with data as well. -/
def Gateway.failing (text : String) (data : Bytes) : Gateway where
  routes := ⟨fun
    | .echo => some (.scripted "echoes" [.echo] 3 (.fail text))
    | .append =>
      some { name := "appends", commands := [.append], act := fun _ _ => .ends 3 (.crashed text) }
    | _ => none⟩
  backend := .scripted
    [⟨some .get, none, 5, .respond ⟨.failed, some (.bytes data), some text⟩⟩,
      ⟨some .put, none, 5, .fail text⟩]

theorem Gateway.failing_alike (text text' : String) (data data' : Bytes) :
    (failing text data).Alike (failing text' data') where
  limit := rfl
  routes := by
    intro command
    cases command with
    | echo => exact .some ⟨rfl, rfl, fun _ _ => .ends 3 (.failed _ _)⟩
    | append => exact .some ⟨rfl, rfl, fun _ _ => .ends 3 (.crashed _ _)⟩
    | _ => exact .none
  backend := by
    rintro ticket ⟨operation, client, key, value, keys⟩
    cases operation with
    | get => exact .ends 5 (.returned fun s => ⟨⟨rfl, nofun⟩, rfl⟩)
    | put => exact .ends 5 (.failed _ _)
    | _ => exact .ends 0 (.returned fun s => ⟨⟨rfl, fun _ => rfl⟩, rfl⟩)

/-- Two gateways whose caches fail with different things, and a client that asks for a key. -/
theorem failures_untold_get :
    let g := Gateway.failing "disk full" [1]
    let g' := Gateway.failing "no route to host" [2, 3]
    let asked : Bytes := [71, 69, 84, 32, 107, 13, 10]
    g.backend.act 0 ⟨.get, 1, some [107], none, []⟩ ≠
        g'.backend.act 0 ⟨.get, 1, some [107], none, []⟩ ∧
      g.Alike g' ∧
      (Server.start g' {} .fresh).play true [.connect, .send 0 asked true] =
        (Server.start g {} .fresh).play true [.connect, .send 0 asked true] := by
  intro g g' asked
  have halike : g.Alike g' := Gateway.failing_alike ..
  exact ⟨by decide, halike, (failures_untold halike).2.2 {} .fresh true _⟩

end RespGateway
