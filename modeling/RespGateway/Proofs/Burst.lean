import Mathlib.Algebra.Ring.Nat
import RespGateway.Proofs.Books
import RespGateway.Proofs.Dispatch
import RespGateway.Proofs.Errands
import RespGateway.Proofs.Runs

/-!
# Commands that are started at once

A burst is a number of commands that are started at once on one session. Each is taken on
at some time and its call ends at some later time. If it is the store that is to answer,
an errand begins then, and the accesses of all errands come in between one another in any
order; a command whose time runs out meanwhile is given up, but its errand goes on. Nothing
is said of the order in which all this happens: whatever is possible may happen next.
`Effect` says what each act does.

Every burst comes to an end, after no more acts than it has effort before it. A closed
session makes no difference but for the replies (`follow?_closed`). The order in which the
gateway itself serves commands at once is one of all these (`follow?_serveAll`).
-/

namespace RespGateway

open Store (Errand)

/-- A command that the store is at work on. -/
structure Serving where
  exchange : Exchange
  query : Cache.Query
  errand : Errand

/-- How the command ends when its errand is done. -/
def Serving.landing (w : Serving) : Landing :=
  .answer w.exchange ((w.query.conclude w.errand.findings).reply w.exchange.command)

/-- Commands that are started at once on one session. -/
structure Burst where
  /-- Those that have not been taken on. -/
  waiting : List Exchange
  /-- Those whose calls are under way. -/
  flights : List Flight := []
  /-- Those that the store is at work on. -/
  servings : List Serving := []
  /-- The errands of commands that have been given up. -/
  strays : List Errand := []
  work : Gateway.State
  outbox : Outbox

namespace Burst

/-- All commands wait. -/
def start (xs : List Exchange) (work : Gateway.State) (outbox : Outbox) : Burst :=
  { waiting := xs, work, outbox }

/-- A command ends, and its reply is sent. -/
def deliver (landing : Landing) (b : Burst) : Burst :=
  let (outbox, work) := b.work.deliver landing b.outbox
  { b with work, outbox }

/-- The call for a command ends. If the store is to answer, its work begins now. -/
def settle (landing : Landing) (b : Burst) : Burst :=
  match landing with
  | .serve x q => { b with servings := b.servings ++ [⟨x, q, { ahead := q.parts }⟩] }
  | landing => b.deliver landing

/-- Something that may happen next. -/
inductive Act where
  /-- A command that waits is taken on. -/
  | launch (place : Nat)
  /-- The call for a command ends. -/
  | land (place : Nat)
  /-- The store goes on with the errand of a command. -/
  | access (place : Nat)
  /-- A command whose errand is done ends. -/
  | reply (place : Nat)
  /-- The time of a command runs out while the store is at work on it. -/
  | giveUp (place : Nat)
  /-- The store goes on with the errand of a command that was given up. -/
  | stray (place : Nat)
  deriving DecidableEq, Repr

/-- Whether a command is given up. -/
def Act.givesUp : Act → Bool
  | .giveUp _ => true
  | _ => false

/-- Carries out an act, if it is possible. -/
def act? (g : Gateway) (b : Burst) : Act → Option Burst
  | .launch place =>
    b.waiting[place]?.map fun x =>
      let (flight, work) := b.work.launch g 0 x
      { b with waiting := b.waiting.eraseIdx place, flights := b.flights ++ [flight], work }
  | .land place =>
    (b.flights[place]?.bind (·.outcome)).map fun (_, landing) =>
      { b with flights := b.flights.eraseIdx place }.settle landing
  | .access place =>
    b.servings[place]?.bind fun w =>
      (w.errand.step? b.work.store).map fun (errand, store) =>
        { b with
          servings := b.servings.set place { w with errand }
          work := { b.work with store } }
  | .reply place =>
    (b.servings[place]?.filter (·.errand.ahead.isEmpty)).map fun w =>
      { b with servings := b.servings.eraseIdx place }.deliver w.landing
  | .giveUp place =>
    (b.servings[place]?.filter fun _ => g.limit.isSome).map fun w =>
      { b with
        servings := b.servings.eraseIdx place
        strays := b.strays ++ [w.errand] }.deliver
          (.answer w.exchange (.generic Reply.operationTimedOut))
  | .stray place =>
    b.strays[place]?.bind fun e =>
      (e.step? b.work.store).map fun (errand, store) =>
        { b with strays := b.strays.set place errand, work := { b.work with store } }

/-- What becomes of a burst. -/
def follow? (g : Gateway) (b : Burst) (acts : List Act) : Option Burst := acts.foldlM (act? g) b

/-- Nothing can happen any more. -/
def Over (g : Gateway) (b : Burst) : Prop := ∀ act, b.act? g act = none

variable {g : Gateway} {b b' : Burst}

theorem follow?_cons (a : Act) (acts : List Act) :
    b.follow? g (a :: acts) = (b.act? g a).bind (·.follow? g acts) := rfl

theorem follow?_append (acts more : List Act) :
    b.follow? g (acts ++ more) = (b.follow? g acts).bind (·.follow? g more) := by
  unfold follow?
  rw [List.foldlM_append]
  rfl

/-! ## What an act does -/

theorem split_of_getElem? {α : Type} {l : List α} {place : Nat} {a : α}
    (h : l[place]? = some a) :
    ∃ before behind, l = before ++ a :: behind ∧ l.eraseIdx place = before ++ behind ∧
      ∀ a', l.set place a' = before ++ a' :: behind := by
  obtain ⟨hplace, rfl⟩ := List.getElem?_eq_some_iff.mp h
  refine ⟨l.take place, l.drop (place + 1), ?_, List.eraseIdx_eq_take_drop_succ .., fun a' => ?_⟩
  · rw [List.getElem_cons_drop, List.take_append_drop]
  · rw [List.set_eq_take_append_cons_drop, if_pos hplace]

theorem getElem?_middle {α : Type} (before : List α) (a : α) (behind : List α) :
    (before ++ a :: behind)[before.length]? = some a := by
  simp

theorem eraseIdx_middle {α : Type} (before : List α) (a : α) (behind : List α) :
    (before ++ a :: behind).eraseIdx before.length = before ++ behind := by
  simp [List.eraseIdx_append_of_length_le]

/-- What an act makes of a burst. -/
inductive Effect (g : Gateway) (b : Burst) : Act → Burst → Prop where
  /-- A command is taken on. -/
  | launch {place : Nat} {before behind : List Exchange} {x : Exchange} :
      b.waiting = before ++ x :: behind →
      Effect g b (.launch place)
        { b with
          waiting := before ++ behind
          flights := b.flights ++ [(b.work.launch g 0 x).1]
          work := (b.work.launch g 0 x).2 }
  /-- The call for a command ends. -/
  | land {place : Nat} {before behind : List Flight} {f : Flight} {moment : Moment}
      {landing : Landing} :
      b.flights = before ++ f :: behind → f.outcome = some (moment, landing) →
      Effect g b (.land place) ({ b with flights := before ++ behind }.settle landing)
  /-- The store makes an access for a command. -/
  | access {place : Nat} {before behind : List Serving} {w : Serving} {e : Errand} {s : Store} :
      b.servings = before ++ w :: behind → w.errand.Step b.work.store e s →
      Effect g b (.access place)
        { b with
          servings := before ++ { w with errand := e } :: behind
          work := { b.work with store := s } }
  /-- A command ends with what was found for it. -/
  | reply {place : Nat} {before behind : List Serving} {w : Serving} :
      b.servings = before ++ w :: behind → w.errand.ahead = [] →
      Effect g b (.reply place) ({ b with servings := before ++ behind }.deliver w.landing)
  /-- A command is given up, and its errand goes astray. -/
  | giveUp {place : Nat} {before behind : List Serving} {w : Serving} :
      b.servings = before ++ w :: behind → g.limit ≠ none →
      Effect g b (.giveUp place)
        ({ b with servings := before ++ behind, strays := b.strays ++ [w.errand] }.deliver
          (.answer w.exchange (.generic Reply.operationTimedOut)))
  /-- The store makes an access for a command that was given up. -/
  | stray {place : Nat} {before behind : List Errand} {e e' : Errand} {s : Store} :
      b.strays = before ++ e :: behind → e.Step b.work.store e' s →
      Effect g b (.stray place)
        { b with strays := before ++ e' :: behind, work := { b.work with store := s } }

theorem act?_effect {a : Act} (h : b.act? g a = some b') : Effect g b a b' := by
  cases a with
  | launch place =>
      obtain ⟨x, hx, rfl⟩ := Option.map_eq_some_iff.mp h
      obtain ⟨before, behind, hwaiting, herase, -⟩ := split_of_getElem? hx
      rw [herase]
      exact .launch hwaiting
  | land place =>
      obtain ⟨⟨moment, landing⟩, hfound, rfl⟩ := Option.map_eq_some_iff.mp h
      obtain ⟨f, hf, houtcome⟩ := Option.bind_eq_some_iff.mp hfound
      obtain ⟨before, behind, hflights, herase, -⟩ := split_of_getElem? hf
      rw [herase]
      exact .land hflights houtcome
  | access place =>
      obtain ⟨w, hw, haccess⟩ := Option.bind_eq_some_iff.mp h
      obtain ⟨⟨e, s⟩, hstep, rfl⟩ := Option.map_eq_some_iff.mp haccess
      obtain ⟨before, behind, hservings, -, hset⟩ := split_of_getElem? hw
      dsimp only
      rw [hset]
      exact .access hservings (Errand.step?_step hstep)
  | reply place =>
      obtain ⟨w, hw, rfl⟩ := Option.map_eq_some_iff.mp h
      obtain ⟨hw, hdone⟩ := Option.filter_eq_some_iff.mp hw
      obtain ⟨before, behind, hservings, herase, -⟩ := split_of_getElem? hw
      rw [herase]
      exact .reply hservings (List.isEmpty_iff.mp hdone)
  | giveUp place =>
      obtain ⟨w, hw, rfl⟩ := Option.map_eq_some_iff.mp h
      obtain ⟨hw, hlimit⟩ := Option.filter_eq_some_iff.mp hw
      obtain ⟨before, behind, hservings, herase, -⟩ := split_of_getElem? hw
      rw [herase]
      exact .giveUp hservings (Option.isSome_iff_ne_none.mp hlimit)
  | stray place =>
      obtain ⟨e, he, haccess⟩ := Option.bind_eq_some_iff.mp h
      obtain ⟨⟨e', s⟩, hstep, rfl⟩ := Option.map_eq_some_iff.mp haccess
      obtain ⟨before, behind, hstrays, -, hset⟩ := split_of_getElem? he
      dsimp only
      rw [hset]
      exact .stray hstrays (Errand.step?_step hstep)

/-- Induction along the acts of a burst. -/
theorem follow?_induction {b₀ : Burst} {P : List Act → Burst → Prop} (start : P [] b₀)
    (next : ∀ acts b a b', P acts b → Effect g b a b' → P (acts ++ [a]) b') :
    ∀ {acts : List Act} {b : Burst}, b₀.follow? g acts = some b → P acts b :=
  foldlM_induction start fun acts b a b' _ hb hact => next acts b a b' hb (act?_effect hact)

/-! ## Every burst comes to an end -/

end Burst

/-- How many acts there are in the end of a command. -/
def Landing.effort : Landing → Nat
  | .serve _ q => 3 * q.parts.length + 2
  | _ => 1

/-- How many acts a command under way has before it. -/
def Flight.effort (f : Flight) : Nat :=
  match f.outcome with
  | some (_, landing) => landing.effort
  | none => 0

/-- How many acts a command that waits has before it. -/
def Exchange.effort (x : Exchange) : Nat :=
  match x.query? with
  | some q => 3 * q.parts.length + 3
  | none => 2

theorem effort_launch (g : Gateway) (work : Gateway.State) (x : Exchange) :
    (work.launch g 0 x).1.effort + 1 ≤ x.effort := by
  have hleast : 2 ≤ x.effort := by
    unfold Exchange.effort
    split <;> omega
  unfold Flight.effort
  split
  · rename_i moment landing houtcome
    obtain ⟨⟨moment', landing'⟩, hlaunch, hlater⟩ := Option.map_eq_some_iff.mp houtcome
    cases hlater
    cases launch_outcome hlaunch with
    | serve hq => simp only [Landing.effort, Exchange.effort, hq, Nat.le_refl]
    | _ => exact hleast
  · omega

namespace Burst

variable {g : Gateway} {b b' : Burst}

/-- How many acts a burst has before it. -/
def effort (b : Burst) : Nat :=
  (b.waiting.map Exchange.effort).sum + (b.flights.map Flight.effort).sum +
    (b.servings.map fun w => w.errand.effort + 1).sum + (b.strays.map Errand.effort).sum

theorem effort_deliver (landing : Landing) (b : Burst) : (b.deliver landing).effort = b.effort :=
  rfl

theorem effort_settle (landing : Landing) (b : Burst) :
    (b.settle landing).effort + 1 = b.effort + landing.effort := by
  cases landing with
  | serve x q =>
      simp only [settle, effort, Landing.effort, List.map_append, List.map_cons, List.map_nil,
        List.sum_append, List.sum_cons, List.sum_nil, Errand.effort_fresh]
      omega
  | reply y => rfl
  | answer x r => rfl

theorem sum_middle {α : Type} (cost : α → Nat) (before : List α) (a : α) (behind : List α) :
    ((before ++ a :: behind).map cost).sum = ((before ++ behind).map cost).sum + cost a := by
  simp only [List.map_append, List.map_cons, List.sum_append, List.sum_cons]
  omega

theorem Effect.effort {a : Act} (h : Effect g b a b') : b'.effort + 1 ≤ b.effort := by
  cases h with
  | @launch _ before behind x hwaiting =>
      have hless := effort_launch g b.work x
      simp only [Burst.effort, hwaiting, sum_middle, List.append_nil]
      omega
  | @land _ before behind f moment landing hflights houtcome =>
      have hsettled := effort_settle landing { b with flights := before ++ behind }
      have hflight : f.effort = landing.effort := by simp only [Flight.effort, houtcome]
      rw [hsettled]
      simp only [Burst.effort, hflights, sum_middle, hflight]
      omega
  | @access _ before behind w e s hservings hstep =>
      have hless := hstep.effort
      simp only [Burst.effort, hservings, sum_middle]
      omega
  | @reply _ before behind w hservings hdone =>
      rw [effort_deliver]
      simp only [Burst.effort, hservings, sum_middle]
      omega
  | @giveUp _ before behind w hservings hlimit =>
      rw [effort_deliver]
      simp only [Burst.effort, hservings, sum_middle, List.append_nil]
      omega
  | @stray _ before behind e e' s hstrays hstep =>
      have hless := hstep.effort
      simp only [Burst.effort, hstrays, sum_middle]
      omega

/-- Every act brings a burst nearer to its end. -/
theorem follow?_effort {acts : List Act} (h : b.follow? g acts = some b') :
    acts.length + b'.effort ≤ b.effort := by
  refine follow?_induction (P := fun acts b' => acts.length + b'.effort ≤ b.effort) ?_ ?_ h
  · simp
  · intro acts b₁ a b₂ hsofar heffect
    have hless := heffect.effort
    rw [List.length_append, List.length_singleton]
    omega

/-- From every state some acts lead to the end. -/
theorem exists_over (g : Gateway) (b : Burst) :
    ∃ acts b', b.follow? g acts = some b' ∧ b'.Over g := by
  induction h : b.effort using Nat.strongRecOn generalizing b with
  | ind n ih =>
      by_cases hover : b.Over g
      · exact ⟨[], b, rfl, hover⟩
      · obtain ⟨a, ha⟩ := not_forall.mp hover
        obtain ⟨b₁, hb₁⟩ := Option.ne_none_iff_exists'.mp ha
        have hless := (act?_effect hb₁).effort
        obtain ⟨acts, b', hacts, hb'⟩ := ih b₁.effort (by omega) b₁ rfl
        refine ⟨a :: acts, b', ?_, hb'⟩
        rw [follow?_cons, hb₁]
        exact hacts

/-! ## The session -/

theorem deliver_work (landing : Landing) (work : Gateway.State) (o o' : Outbox) :
    (work.deliver landing o).2 = (work.deliver landing o').2 := by
  unfold Gateway.State.deliver
  split <;> rfl

theorem offer_closed {o : Outbox} (h : o.isOpen = false) (item : Outgoing) :
    o.offer item = o := by
  simp [Outbox.offer, Outbox.push, h]

theorem deliver_closed {o : Outbox} (h : o.isOpen = false) (landing : Landing) (b : Burst) :
    ({ b with outbox := o } : Burst).deliver landing =
      { b.deliver landing with outbox := o } := by
  have hsame : (b.work.deliver landing o).1 = o := by
    unfold Gateway.State.deliver
    split
    · exact offer_closed h _
    · rfl
  simp only [deliver, hsame, deliver_work landing b.work o b.outbox]

theorem settle_closed {o : Outbox} (h : o.isOpen = false) (landing : Landing) (b : Burst) :
    ({ b with outbox := o } : Burst).settle landing =
      { b.settle landing with outbox := o } := by
  cases landing with
  | serve x q => rfl
  | reply y => exact deliver_closed h (.reply y) b
  | answer x r => exact deliver_closed h (.answer x r) b

/-- On a closed session everything happens as on an open one, but for the replies. -/
theorem act?_closed {o : Outbox} (h : o.isOpen = false) (b : Burst) (a : Act) :
    ({ b with outbox := o } : Burst).act? g a =
      (b.act? g a).map fun b' => { b' with outbox := o } := by
  cases a with
  | launch place =>
      simp only [act?, Option.map_map]
      rfl
  | land place =>
      simp only [act?, Option.map_map]
      congr 1
      funext p
      exact settle_closed h p.2 { b with flights := b.flights.eraseIdx place }
  | access place =>
      simp only [act?]
      cases b.servings[place]? with
      | none => rfl
      | some w =>
          simp only [Option.bind_some, Option.map_map]
          rfl
  | reply place =>
      simp only [act?, Option.map_map]
      congr 1
      funext w
      exact deliver_closed h w.landing { b with servings := b.servings.eraseIdx place }
  | giveUp place =>
      simp only [act?, Option.map_map]
      congr 1
      funext w
      exact deliver_closed h _ { b with
        servings := b.servings.eraseIdx place, strays := b.strays ++ [w.errand] }
  | stray place =>
      simp only [act?]
      cases b.strays[place]? with
      | none => rfl
      | some e =>
          simp only [Option.bind_some, Option.map_map]
          rfl

theorem follow?_closed {o : Outbox} (h : o.isOpen = false) (acts : List Act) :
    ∀ b : Burst, ({ b with outbox := o } : Burst).follow? g acts =
      (b.follow? g acts).map fun b' => { b' with outbox := o } := by
  induction acts with
  | nil => exact fun b => rfl
  | cons a acts ih =>
      intro b
      rw [follow?_cons, follow?_cons, act?_closed h]
      cases b.act? g a with
      | none => rfl
      | some b₁ => exact ih b₁

/-! ## Serving commands at once -/

/-- First all commands are taken on, in their order. -/
theorem follow?_launchAll (xs : List Exchange) :
    ∀ (flights : List Flight) (work : Gateway.State) (o : Outbox),
      (⟨xs, flights, [], [], work, o⟩ : Burst).follow? g (List.replicate xs.length (.launch 0)) =
        some ⟨[], flights ++ (work.launchAll g 0 xs).1, [], [], (work.launchAll g 0 xs).2, o⟩ := by
  induction xs with
  | nil =>
      intro flights work o
      rw [Gateway.State.launchAll, List.append_nil]
      rfl
  | cons x xs ih =>
      intro flights work o
      have hlaunch : (⟨x :: xs, flights, [], [], work, o⟩ : Burst).act? g (.launch 0) =
          some ⟨xs, flights ++ [(work.launch g 0 x).1], [], [], (work.launch g 0 x).2, o⟩ := rfl
      rw [List.length_cons, List.replicate_succ, follow?_cons, hlaunch, Option.bind_some, ih]
      simp only [Gateway.State.launchAll, List.append_assoc, List.singleton_append]

/-- An errand to which nothing comes in between. -/
theorem follow?_errand (flights : List Flight) (x : Exchange) (q : Cache.Query) (o : Outbox)
    (ps : List Store.Part) :
    ∀ (findings : List Store.Finding) (work : Gateway.State),
      (⟨[], flights, [⟨x, q, ⟨ps, .fresh, findings⟩⟩], [], work, o⟩ : Burst).follow? g
          (List.replicate (3 * ps.length) (.access 0)) =
        some ⟨[], flights, [⟨x, q, ⟨[], .fresh, findings ++ (work.store.carryOut ps).1⟩⟩], [],
          { work with store := (work.store.carryOut ps).2 }, o⟩ := by
  induction ps with
  | nil =>
      intro findings work
      rw [Store.carryOut, List.append_nil]
      rfl
  | cons p ps ih =>
      intro findings work
      -- three accesses bring the errand to its next part
      have hone := ih (findings ++ [(p.perform work.store).1])
        { work with store := (p.perform work.store).2 }
      rw [List.append_assoc, List.singleton_append] at hone
      exact hone

/-- A command under way ends, and nothing else happens meanwhile. -/
theorem follow?_land {f : Flight} {moment : Moment} {landing : Landing}
    (h : f.outcome = some (moment, landing)) (before behind : List Flight) (work : Gateway.State)
    (o : Outbox) :
    ∃ acts, (⟨[], before ++ f :: behind, [], [], work, o⟩ : Burst).follow? g acts =
      some ⟨[], before ++ behind, [], [], (work.deliver landing o).2,
        (work.deliver landing o).1⟩ := by
  have hland : (⟨[], before ++ f :: behind, [], [], work, o⟩ : Burst).act? g
      (.land before.length) =
        some ((⟨[], before ++ behind, [], [], work, o⟩ : Burst).settle landing) := by
    simp only [act?, getElem?_middle, eraseIdx_middle, Option.bind_some, h, Option.map_some]
  cases landing with
  | reply y => exact ⟨[.land before.length], by rw [follow?_cons, hland]; rfl⟩
  | answer x r => exact ⟨[.land before.length], by rw [follow?_cons, hland]; rfl⟩
  | serve x q =>
      refine ⟨.land before.length ::
        (List.replicate (3 * q.parts.length) (.access 0) ++ [.reply 0]), ?_⟩
      have herrand := follow?_errand (g := g) (before ++ behind) x q o q.parts [] work
      rw [List.nil_append] at herrand
      rw [follow?_cons, hland, Option.bind_some, follow?_append]
      change ((⟨[], before ++ behind, [⟨x, q, ⟨q.parts, .fresh, []⟩⟩], [], work, o⟩ :
        Burst).follow? g _).bind _ = _
      rw [herrand]
      have hanswer := Store.answer_eq work.store q
      simp only [Gateway.State.deliver, Gateway.State.land, Landing.land, hanswer]
      rfl

/-- Commands under way can end in any order. -/
theorem follow?_deliverAll (ends : List (Moment × Landing)) :
    ∀ (flights : List Flight) (work : Gateway.State) (o : Outbox),
      (flights.map (·.outcome)).Perm (ends.map some) →
      ∃ acts, (⟨[], flights, [], [], work, o⟩ : Burst).follow? g acts =
        some ⟨[], [], [], [], (work.deliverAll (ends.map (·.2)) o).2,
          (work.deliverAll (ends.map (·.2)) o).1⟩ := by
  induction ends with
  | nil =>
      intro flights work o hperm
      obtain rfl : flights = [] := by simpa using hperm
      exact ⟨[], rfl⟩
  | cons first ends ih =>
      intro flights work o hperm
      have hmem : some first ∈ flights.map (·.outcome) := hperm.mem_iff.mpr (by simp)
      obtain ⟨f, hf, houtcome⟩ := List.mem_map.mp hmem
      obtain ⟨before, behind, rfl⟩ := List.append_of_mem hf
      have hrest : ((before ++ behind).map (·.outcome)).Perm (ends.map some) := by
        rw [List.map_append, List.map_cons, List.map_cons, houtcome] at hperm
        rw [List.map_append]
        exact (List.perm_middle.symm.trans hperm).cons_inv
      obtain ⟨acts, hacts⟩ := follow?_land (g := g) houtcome before behind work o
      obtain ⟨more, hmore⟩ := ih (before ++ behind) (work.deliver first.2 o).2
        (work.deliver first.2 o).1 hrest
      refine ⟨acts ++ more, ?_⟩
      rw [follow?_append, hacts, Option.bind_some, hmore]
      rfl

theorem launchAll_ends (hends : g.AlwaysEnds) (xs : List Exchange) :
    ∀ work : Gateway.State, (work.launchAll g 0 xs).1.map (·.outcome) =
      ((work.launchAll g 0 xs).1.filterMap (·.outcome)).map some := by
  induction xs with
  | nil => exact fun work => rfl
  | cons x xs ih =>
      intro work
      obtain ⟨moment, landing, hlaunch⟩ := launch_ends hends work.tickets x
      have hfirst : (work.launch g 0 x).1.outcome = some (moment.after 0, landing) := by
        simp only [Gateway.State.launch, hlaunch, Option.map_some]
      simp only [Gateway.State.launchAll]
      rw [List.map_cons, List.filterMap_cons_some hfirst, List.map_cons, ih, hfirst]

/-- **What the gateway does with commands that come at once is one of the courses of a burst.** -/
theorem follow?_serveAll (hends : g.AlwaysEnds) (xs : List Exchange) (work : Gateway.State)
    (o : Outbox) :
    ∃ acts, (start xs work o).follow? g acts =
      some ⟨[], [], [], [], (work.serveAll g xs o).2, (work.serveAll g xs o).1⟩ := by
  have hperm : ((work.launchAll g 0 xs).1.map (·.outcome)).Perm
      ((((work.launchAll g 0 xs).1.filterMap (·.outcome)).mergeSort
        fun a b => a.1.notAfter b.1).map some) := by
    rw [launchAll_ends hends]
    exact (List.mergeSort_perm _ _).symm.map some
  obtain ⟨acts, hacts⟩ := follow?_deliverAll _ _ (work.launchAll g 0 xs).2 o hperm
  refine ⟨List.replicate xs.length (.launch 0) ++ acts, ?_⟩
  have hlaunched := follow?_launchAll (g := g) xs [] work o
  rw [List.nil_append] at hlaunched
  rw [follow?_append]
  change ((⟨xs, [], [], [], work, o⟩ : Burst).follow? g _).bind (·.follow? g acts) = _
  rw [hlaunched]
  exact hacts

end Burst

end RespGateway
