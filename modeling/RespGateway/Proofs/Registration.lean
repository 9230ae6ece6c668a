import Mathlib.Data.List.Dedup
import RespGateway.Routes

/-!
# Registering handlers

A list of handlers makes routes if and only if no two of them claim one command, where a
handler that stands in the list twice counts as two. The routes do not depend on the order of
the list, and their summary does not depend on the order in which they are listed. Where two
claim one command the order does matter: the first handler in the list that meets a claim
made before it is refused, for the first such command of its own.

`Claimed` is what holds of the routes after some handlers, `FirstClash` says which handler
is refused.
-/

namespace RespGateway

/-! ## Commands and their names -/

namespace Command

theorem mem_all (command : Command) : command ∈ all := by cases command <;> decide

theorem nodup_names : (all.map name).Nodup := by decide

theorem nodup_all : all.Nodup := nodup_names.of_map

theorem eq_of_name {a b : Command} (h : a.name = b.name) : a = b :=
  List.inj_on_of_nodup_map nodup_names (mem_all a) (mem_all b) h

end Command

namespace Routes

variable {handlers earlier later : List Handler} {r r' : Routes} {h : Handler}

/-! ## Claims that stay apart -/

/-- No command is claimed by two of the handlers. -/
def Apart (handlers : List Handler) : Prop :=
  handlers.Pairwise fun h h' => ∀ command ∈ h.commands, command ∉ h'.commands

theorem Apart.perm (h : Apart handlers) {handlers' : List Handler}
    (hperm : handlers.Perm handlers') : Apart handlers' :=
  List.Pairwise.perm h hperm fun hxy command hy hx => hxy command hx hy

/-- No command is claimed at two positions. -/
theorem apart_iff : Apart handlers ↔ ∀ (i j : Nat) (hi : i < handlers.length)
    (hj : j < handlers.length), ∀ command ∈ handlers[i].commands,
      command ∈ handlers[j].commands → i = j := by
  unfold Apart
  rw [List.pairwise_iff_getElem]
  constructor
  · intro hapart i j hi hj command hci hcj
    rcases Nat.lt_trichotomy i j with hij | hij | hij
    · exact absurd hcj (hapart i j hi hj hij command hci)
    · exact hij
    · exact absurd hci (hapart j i hj hi hij command hcj)
  · intro hunique i j hi hj hij command hci hcj
    exact Nat.ne_of_lt hij (hunique i j hi hj command hci hcj)

theorem apart_concat (hearlier : Apart earlier)
    (hfree : ∀ command ∈ h.commands, ∀ e ∈ earlier, command ∉ e.commands) :
    Apart (earlier ++ [h]) := by
  refine List.pairwise_append.mpr ⟨hearlier, List.pairwise_singleton .., ?_⟩
  intro e he h' hh' command hce hch
  rw [List.mem_singleton.mp hh'] at hch
  exact hfree command hch e he hce

/-- A handler of a list meets a claim made before it: the handlers before it are apart, and `clash`
is about the first of its commands that one of them claims. -/
inductive FirstClash : List Handler → Nat → Clash → Prop where
  | mk {earlier later : List Handler} {handler existing : Handler}
      {before behind : List Command} {command : Command} :
      Apart earlier → handler.commands = before ++ command :: behind →
      (∀ c ∈ before, ∀ e ∈ earlier, c ∉ e.commands) →
      existing ∈ earlier → command ∈ existing.commands →
      FirstClash (earlier ++ handler :: later) earlier.length
        ⟨command, existing.name, handler.name⟩

theorem FirstClash.not_apart {position : Nat} {clash : Clash}
    (hclash : FirstClash handlers position clash) : ¬Apart handlers := by
  intro hapart
  cases hclash with
  | mk _ hcommands _ hexisting hclaims =>
      have happly := (List.pairwise_append.mp hapart).2.2 _ hexisting _ (List.mem_cons_self ..)
      exact happly _ hclaims (by simp [hcommands])

/-! ## One handler -/

theorem register_free (hfree : ∀ command ∈ h.commands, r.lookup command = none) :
    r.register h =
      .ok ⟨fun command => if command ∈ h.commands then some h else r.lookup command⟩ := by
  have htaken : r.taken? h.commands = none :=
    List.findSome?_eq_none_iff.mpr fun command hcommand => by rw [hfree command hcommand]; rfl
  rw [register, htaken]

theorem register_clash {existing : Handler} {before behind : List Command} {command : Command}
    (hcommands : h.commands = before ++ command :: behind)
    (hfree : ∀ c ∈ before, r.lookup c = none) (hexisting : r.lookup command = some existing) :
    r.register h = .error ⟨command, existing.name, h.name⟩ := by
  have htaken : r.taken? h.commands = some (command, existing) := by
    refine List.findSome?_eq_some_iff.mpr ⟨before, command, behind, hcommands, ?_, ?_⟩
    · rw [hexisting]
      rfl
    · intro c hc
      rw [hfree c hc]
      rfl
  rw [register, htaken]

/-- The commands of a handler are all free, or there is a first that is not. -/
theorem free_or_taken (r : Routes) (commands : List Command) :
    (∀ command ∈ commands, r.lookup command = none) ∨
      ∃ before command behind existing, commands = before ++ command :: behind ∧
        (∀ c ∈ before, r.lookup c = none) ∧ r.lookup command = some existing := by
  cases htaken : r.taken? commands with
  | none =>
      refine .inl fun command hcommand => ?_
      exact Option.map_eq_none_iff.mp (List.findSome?_eq_none_iff.mp htaken command hcommand)
  | some taken =>
      obtain ⟨before, command, behind, hcommands, hfound, hfree⟩ :=
        List.findSome?_eq_some_iff.mp htaken
      obtain ⟨existing, hexisting, -⟩ := Option.map_eq_some_iff.mp hfound
      exact .inr ⟨before, command, behind, existing, hcommands,
        fun c hc => Option.map_eq_none_iff.mp (hfree c hc), hexisting⟩

/-! ## One handler after another -/

/-- The routes after some handlers: each command goes to the handler that claims it. -/
structure Claimed (handlers : List Handler) (r : Routes) : Prop where
  listed : ∀ h ∈ handlers, ∀ command ∈ h.commands, r.lookup command = some h
  unlisted : ∀ command, (∀ h ∈ handlers, command ∉ h.commands) → r.lookup command = none

theorem claimed_empty : Claimed [] empty := ⟨nofun, fun _ _ => rfl⟩

namespace Claimed

theorem lookup_eq_none_iff (hclaimed : Claimed handlers r) (command : Command) :
    r.lookup command = none ↔ ∀ h ∈ handlers, command ∉ h.commands := by
  refine ⟨fun hnone h hh hcommand => ?_, hclaimed.unlisted command⟩
  rw [hclaimed.listed h hh command hcommand] at hnone
  cases hnone

theorem of_lookup (hclaimed : Claimed handlers r) {command : Command}
    (hlookup : r.lookup command = some h) : h ∈ handlers ∧ command ∈ h.commands := by
  have hsome : ¬∀ h ∈ handlers, command ∉ h.commands := by
    rw [← hclaimed.lookup_eq_none_iff, hlookup]
    exact nofun
  obtain ⟨h', hh', hcommand⟩ : ∃ h' ∈ handlers, command ∈ h'.commands := by
    simpa using hsome
  rw [hclaimed.listed h' hh' command hcommand] at hlookup
  obtain rfl := Option.some.inj hlookup
  exact ⟨hh', hcommand⟩

theorem concat (hclaimed : Claimed handlers r)
    (hfree : ∀ command ∈ h.commands, r.lookup command = none) :
    Claimed (handlers ++ [h])
      ⟨fun command => if command ∈ h.commands then some h else r.lookup command⟩ where
  listed := by
    intro h' hh' command hcommand
    dsimp only
    rcases List.mem_append.mp hh' with hearlier | hlast
    · have hlookup := hclaimed.listed h' hearlier command hcommand
      have hother : command ∉ h.commands := by
        intro hown
        rw [hfree command hown] at hlookup
        cases hlookup
      rw [if_neg hother, hlookup]
    · obtain rfl := List.mem_singleton.mp hlast
      exact if_pos hcommand
  unlisted := by
    intro command hnobody
    dsimp only
    rw [if_neg (hnobody h (by simp))]
    exact hclaimed.unlisted command fun e he => hnobody e (List.mem_append_left _ he)

/-- The routes are told by who the handlers are, not by their order. -/
theorem eq_of_mem (hclaimed : Claimed handlers r) {handlers' : List Handler}
    (hclaimed' : Claimed handlers' r') (hmem : ∀ h, h ∈ handlers ↔ h ∈ handlers') : r' = r := by
  obtain ⟨lookup⟩ := r
  obtain ⟨lookup'⟩ := r'
  congr 1
  funext command
  cases hlookup : lookup command with
  | none =>
      refine hclaimed'.unlisted command fun h hh => ?_
      exact (hclaimed.lookup_eq_none_iff command).mp hlookup h ((hmem h).mpr hh)
  | some h =>
      obtain ⟨hh, hcommand⟩ := hclaimed.of_lookup hlookup
      exact hclaimed'.listed h ((hmem h).mp hh) command hcommand

end Claimed

/-- What becomes of a list of handlers behind those that have been registered. -/
theorem registerFrom_cases (hapart : Apart earlier) (hclaimed : Claimed earlier r)
    (later : List Handler) :
    (∃ r', registerFrom earlier.length r later = .ok r' ∧ Apart (earlier ++ later) ∧
        Claimed (earlier ++ later) r') ∨
      ∃ position clash, registerFrom earlier.length r later = .error (position, clash) ∧
        FirstClash (earlier ++ later) position clash := by
  induction later generalizing earlier r with
  | nil =>
      rw [List.append_nil]
      exact .inl ⟨r, rfl, hapart, hclaimed⟩
  | cons h later ih =>
      rcases r.free_or_taken h.commands with hfree | ⟨before, command, behind, existing, hcommands,
        hfree, hexisting⟩
      · have hnobody : ∀ command ∈ h.commands, ∀ e ∈ earlier, command ∉ e.commands :=
          fun command hcommand => (hclaimed.lookup_eq_none_iff command).mp (hfree command hcommand)
        have hrest := ih (apart_concat hapart hnobody) (hclaimed.concat hfree)
        rw [List.append_assoc, List.length_append] at hrest
        rw [registerFrom, register_free hfree]
        exact hrest
      · obtain ⟨hmem, hclaims⟩ := hclaimed.of_lookup hexisting
        rw [registerFrom, register_clash hcommands hfree hexisting]
        exact .inr ⟨_, _, rfl, .mk hapart hcommands
          (fun c hc => (hclaimed.lookup_eq_none_iff c).mp (hfree c hc)) hmem hclaims⟩

theorem registerFrom_append (position : Nat) (r : Routes) (earlier later : List Handler) :
    registerFrom position r (earlier ++ later) =
      match registerFrom position r earlier with
      | .ok r => registerFrom (position + earlier.length) r later
      | .error refused => .error refused := by
  induction earlier generalizing position r with
  | nil => rfl
  | cons h earlier ih =>
      rw [List.cons_append, registerFrom, registerFrom]
      cases r.register h with
      | error clash => rfl
      | ok r =>
          dsimp only
          rw [ih, List.length_cons, Nat.add_assoc, Nat.add_comm 1]

/-- Handlers that keep apart are registered, and only these are. -/
theorem registerFrom_of_apart (hapart : Apart handlers) :
    ∃ r, registerFrom 0 empty handlers = .ok r ∧ Claimed handlers r := by
  rcases registerFrom_cases (.nil : Apart []) claimed_empty handlers with
    ⟨r, hr, -, hclaimed⟩ | ⟨position, clash, -, hclash⟩
  · exact ⟨r, hr, hclaimed⟩
  · exact absurd hapart hclash.not_apart

theorem apart_of_registerFrom (hr : registerFrom 0 empty handlers = .ok r) :
    Apart handlers ∧ Claimed handlers r := by
  rcases registerFrom_cases (.nil : Apart []) claimed_empty handlers with
    ⟨r', hr', hapart, hclaimed⟩ | ⟨position, clash, hrefused, -⟩
  · obtain rfl : r' = r := Except.ok.inj (hr'.symm.trans hr)
    exact ⟨hapart, hclaimed⟩
  · cases hrefused.symm.trans hr

theorem registerFrom_error_iff {position : Nat} {clash : Clash} :
    registerFrom 0 empty handlers = .error (position, clash) ↔
      FirstClash handlers position clash := by
  constructor
  · intro hrefused
    rcases registerFrom_cases (.nil : Apart []) claimed_empty handlers with
      ⟨r, hr, -⟩ | ⟨position', clash', hrefused', hclash⟩
    · cases hr.symm.trans hrefused
    · cases hrefused'.symm.trans hrefused
      exact hclash
  · intro hclash
    cases hclash with
    | mk hapart hcommands hfree hexisting hclaims =>
        obtain ⟨r, hr, hclaimed⟩ := registerFrom_of_apart hapart
        rw [registerFrom_append, hr, Nat.zero_add]
        dsimp only
        rw [registerFrom, register_clash hcommands
          (fun c hc => hclaimed.unlisted c (hfree c hc)) (hclaimed.listed _ hexisting _ hclaims)]

/-- All at once or one by one is the same, but for the position that a refusal tells. -/
theorem foldlM_register (position : Nat) (r : Routes) (handlers : List Handler) :
    handlers.foldlM register r = (registerFrom position r handlers).mapError Prod.snd := by
  induction handlers generalizing position r with
  | nil => rfl
  | cons h handlers ih =>
      rw [List.foldlM_cons, registerFrom]
      cases r.register h with
      | error clash => rfl
      | ok r => exact ih (position + 1) r

theorem ofHandlers_eq (handlers : List Handler) :
    ofHandlers handlers = (registerFrom 0 empty handlers).mapError Prod.snd :=
  foldlM_register 0 empty handlers

theorem ofHandlers_eq_ok_iff :
    ofHandlers handlers = .ok r ↔ registerFrom 0 empty handlers = .ok r := by
  rw [ofHandlers_eq]
  cases registerFrom 0 empty handlers <;> simp [Except.mapError]

theorem ofHandlers_eq_error_iff {clash : Clash} :
    ofHandlers handlers = .error clash ↔ ∃ position, FirstClash handlers position clash := by
  simp only [ofHandlers_eq, ← registerFrom_error_iff]
  cases registerFrom 0 empty handlers with
  | ok r => simp [Except.mapError]
  | error refused =>
      obtain ⟨position, clash'⟩ := refused
      simp [Except.mapError]

/-! ## How many there are -/

theorem map_entries (r : Routes) :
    r.entries.map Prod.fst = Command.all.filter fun command => (r.lookup command).isSome := by
  unfold entries
  induction Command.all with
  | nil => rfl
  | cons command commands ih =>
      cases hlookup : r.lookup command <;> simp [hlookup, ih]

theorem nodup_entries (r : Routes) : (r.entries.map Prod.fst).Nodup := by
  rw [map_entries]
  exact Command.nodup_all.filter _

/-- There are as many routes as different commands are claimed. -/
theorem Claimed.size (hclaimed : Claimed handlers r) :
    r.size = (handlers.flatMap (·.commands)).dedup.length := by
  have hmem : ∀ command, command ∈ r.entries.map Prod.fst ↔
      command ∈ (handlers.flatMap (·.commands)).dedup := by
    intro command
    rw [map_entries, List.mem_filter, List.mem_dedup, List.mem_flatMap, Option.isSome_iff_ne_none,
      ne_eq, hclaimed.lookup_eq_none_iff]
    simp [Command.mem_all]
  have hperm := (List.perm_ext_iff_of_nodup r.nodup_entries (List.nodup_dedup _)).mpr hmem
  rw [Routes.size, ← List.length_map (f := Prod.fst), hperm.length_eq]

/-! ## In one line -/

/-- Routes in one line, in the order in which they are listed. -/
def written (listing : List (Command × String)) : String :=
  let shown := listing.map fun (command, handler) =>
    "(" ++ Text.quoted command.name ++ ", " ++ Text.quoted handler ++ ")"
  "HandlerRegistry \x7b handlers: [" ++ String.intercalate ", " shown ++ "] \x7d"

/-- In whatever order the routes are listed, the summary is what they are written as once they are
in the order of the names of their commands. -/
theorem summary_eq_written (r : Routes) {listing : List (Command × String)}
    (hperm : listing.Perm r.entries) (hsorted : listing.Pairwise fun a b => a.1.name ≤ b.1.name) :
    r.summary = written listing := by
  have hin : (r.entries.mergeSort fun a b => a.1.name ≤ b.1.name).Pairwise
      fun a b => a.1.name ≤ b.1.name := by
    have htrans : ∀ a b c : Command × String, decide (a.1.name ≤ b.1.name) →
        decide (b.1.name ≤ c.1.name) → decide (a.1.name ≤ c.1.name) := by
      intro a b c hab hbc
      exact decide_eq_true (String.le_trans (of_decide_eq_true hab) (of_decide_eq_true hbc))
    have htotal : ∀ a b : Command × String,
        decide (a.1.name ≤ b.1.name) || decide (b.1.name ≤ a.1.name) := by
      intro a b
      rw [Bool.or_eq_true, decide_eq_true_iff, decide_eq_true_iff]
      exact String.le_total ..
    exact (List.pairwise_mergeSort htrans htotal r.entries).imp fun h => of_decide_eq_true h
  have hsame : (r.entries.mergeSort fun a b => a.1.name ≤ b.1.name) = listing := by
    refine List.Perm.eq_of_pairwise ?_ hin hsorted ((List.mergeSort_perm ..).trans hperm.symm)
    intro a b ha hb hab hba
    have hname := Command.eq_of_name (String.le_antisymm hab hba)
    exact List.inj_on_of_nodup_map r.nodup_entries ((List.mergeSort_perm ..).subset ha)
      (hperm.subset hb) hname
  rw [← hsame]
  rfl

/-! ## What comes of a list of handlers -/

/-- The routes that handlers make. -/
structure Built (handlers : List Handler) (r : Routes) : Prop where
  /-- A command goes to the handler that claims it. -/
  listed : ∀ h ∈ handlers, ∀ command ∈ h.commands, r.lookup command = some h
  /-- A command that no handler claims goes to none. -/
  unlisted : ∀ command, (∀ h ∈ handlers, command ∉ h.commands) → r.lookup command = none
  /-- There are as many routes as different commands are claimed. -/
  size : r.size = (handlers.flatMap (·.commands)).dedup.length
  /-- In any other order the handlers make the same routes. -/
  perm : ∀ handlers', handlers.Perm handlers' → ofHandlers handlers' = .ok r
  /-- Listed in any order and then put in the order of names, the routes are written the same. -/
  summary : ∀ listing : List (Command × String), listing.Perm r.entries →
    (listing.Pairwise fun a b => a.1.name ≤ b.1.name) → r.summary = written listing

theorem built_of_ofHandlers (hr : ofHandlers handlers = .ok r) : Built handlers r := by
  obtain ⟨hapart, hclaimed⟩ := apart_of_registerFrom (ofHandlers_eq_ok_iff.mp hr)
  refine ⟨hclaimed.listed, hclaimed.unlisted, hclaimed.size, fun handlers' hperm => ?_,
    fun _ => r.summary_eq_written⟩
  obtain ⟨r', hr', hclaimed'⟩ := registerFrom_of_apart (hapart.perm hperm)
  rw [ofHandlers_eq_ok_iff, hr', hclaimed.eq_of_mem hclaimed' fun h => hperm.mem_iff]

/-- **Handlers make routes if and only if no command is claimed at two positions of their list.**
The routes are then the same in every order; otherwise the first handler that meets an earlier claim
is refused. Registering one by one gives the same routes, or the same refusal at the position of
that handler. -/
theorem ofHandlers_outcome (handlers : List Handler) :
    ((∃ r, ofHandlers handlers = .ok r) ↔
        ∀ (i j : Nat) (hi : i < handlers.length) (hj : j < handlers.length),
          ∀ command ∈ handlers[i].commands, command ∈ handlers[j].commands → i = j) ∧
      (∀ r, ofHandlers handlers = .ok r → Built handlers r) ∧
      (∀ clash, ofHandlers handlers = .error clash ↔
        ∃ position, FirstClash handlers position clash) ∧
      (∀ r, registerFrom 0 empty handlers = .ok r ↔ ofHandlers handlers = .ok r) ∧
      ∀ position clash, registerFrom 0 empty handlers = .error (position, clash) ↔
        FirstClash handlers position clash := by
  refine ⟨?_, fun r => built_of_ofHandlers, fun clash => ofHandlers_eq_error_iff,
    fun r => ofHandlers_eq_ok_iff.symm, fun position clash => registerFrom_error_iff⟩
  rw [← apart_iff]
  constructor
  · intro ⟨r, hr⟩
    exact (apart_of_registerFrom (ofHandlers_eq_ok_iff.mp hr)).1
  · intro hapart
    obtain ⟨r, hr, -⟩ := registerFrom_of_apart hapart
    exact ⟨r, ofHandlers_eq_ok_iff.mpr hr⟩

/-- A handler may claim one command twice, and it makes the same routes in front of another and
behind it. -/
theorem ofHandlers_outcome_repeated :
    let strings : Handler :=
      { Handler.connection with name := "strings", commands := [.append, .strlen, .append] }
    ∃ r, ofHandlers [.connection, strings] = .ok r ∧ Built [.connection, strings] r ∧
      ofHandlers [strings, .connection] = .ok r := by
  intro strings
  have hr : ofHandlers [.connection, strings] = .ok
      ⟨fun command => if command ∈ strings.commands then some strings else
        if command ∈ Handler.connection.commands then some .connection else none⟩ := rfl
  have hbuilt := (ofHandlers_outcome [.connection, strings]).2.1 _ hr
  exact ⟨_, hr, hbuilt, hbuilt.perm _ (.swap ..)⟩

/-- The connection handler registered twice is refused for `PING`, the first command of its own. -/
example : registerFrom 0 empty [.connection, .connection] =
    .error (1, ⟨.ping, "connection", "connection"⟩) := rfl

end Routes

end RespGateway
