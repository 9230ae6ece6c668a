import Mathlib.Data.List.Induction
import RespGateway.Proofs.Moves

/-!
# Runs of a server

A run is a list of what happens to a server: clients connect, something arrives from
them, and in between the server moves by itself, in whatever order. `follow?` carries a
run out. A server is at rest when no move is possible; without anything from outside it
gets there, whichever moves it makes (`moves_end`, `exists_rest`).
-/

namespace RespGateway

/-- Induction along a list of steps that are carried out one after another. -/
theorem foldlM_induction {σ α : Type} {step : σ → α → Option σ} {s₀ : σ} {P : List α → σ → Prop}
    (start : P [] s₀)
    (next : ∀ steps s a s', steps.foldlM step s₀ = some s → P steps s → step s a = some s' →
      P (steps ++ [a]) s') :
    ∀ {steps : List α} {s : σ}, steps.foldlM step s₀ = some s → P steps s := by
  intro steps
  induction steps using List.reverseRecOn with
  | nil =>
      intro s h
      obtain rfl : s₀ = s := Option.some.inj h
      exact start
  | append_singleton steps a ih =>
      intro s hs
      rw [List.foldlM_append] at hs
      obtain ⟨s', hs', hstep⟩ := Option.bind_eq_some_iff.mp hs
      refine next steps s' a s hs' (ih hs') ?_
      simpa using hstep

end RespGateway

namespace RespGateway.Server

/-- Something that happens to a server, from outside or by itself. -/
inductive Happening where
  | accept
  | receive (i : Nat) (a : Arrival)
  | move (m : Move)

/-- Carries out what happens, if it can happen. Only a client that has connected can send. -/
def happen? (s : Server) : Happening → Option Server
  | .accept => some s.accept
  | .receive i a => if i < s.connections.length then some (s.receive i a) else none
  | .move m => s.perform? m

/-- What becomes of a server in a run. -/
def follow? (s : Server) (run : List Happening) : Option Server := run.foldlM happen? s

/-- What has arrived from a client in a run. -/
def arrived (run : List Happening) (i : Nat) : List Arrival :=
  run.filterMap fun
    | .receive j a => if j = i then some a else none
    | _ => none

/-- No move is possible. -/
def AtRest (s : Server) : Prop := ∀ m, s.perform? m = none

theorem follow?_append (s : Server) (run run' : List Happening) :
    s.follow? (run ++ run') = (s.follow? run).bind (·.follow? run') := by
  unfold follow?
  rw [List.foldlM_append]
  rfl

theorem follow?_concat (s : Server) (run : List Happening) (h : Happening) :
    s.follow? (run ++ [h]) = (s.follow? run).bind (·.happen? h) := by
  rw [follow?_append]
  congr 1
  funext s'
  simp [follow?]

/-- Induction along a run. -/
theorem follow?_induction {s₀ : Server} {P : List Happening → Server → Prop} (start : P [] s₀)
    (next : ∀ run s h s', s₀.follow? run = some s → P run s → s.happen? h = some s' →
      P (run ++ [h]) s') :
    ∀ {run : List Happening} {s : Server}, s₀.follow? run = some s → P run s :=
  foldlM_induction start next

theorem arrived_append (run run' : List Happening) (i : Nat) :
    arrived (run ++ run') i = arrived run i ++ arrived run' i := by
  unfold arrived
  rw [List.filterMap_append]

theorem arrived_concat (run : List Happening) (h : Happening) (i : Nat) :
    arrived (run ++ [h]) i = arrived run i ++ arrived [h] i := arrived_append run [h] i

/-! ## Coming to rest -/

/-- **Every series of moves ends**, after no more moves than the server has effort before it. -/
theorem moves_end {s s' : Server} :
    ∀ {moves : List Move}, s.follow? (moves.map .move) = some s' →
      moves.length + s'.effort ≤ s.effort := by
  intro moves
  induction moves generalizing s with
  | nil =>
      intro h
      obtain rfl : s = s' := Option.some.inj h
      simp
  | cons m moves ih =>
      intro h
      obtain ⟨s₁, hstep, hrest⟩ := Option.bind_eq_some_iff.mp h
      have := perform?_effort hstep
      have := ih hrest
      rw [List.length_cons]
      omega

/-- **From every state some moves lead to rest.** -/
theorem exists_rest (s : Server) :
    ∃ (moves : List Move) (s' : Server), s.follow? (moves.map .move) = some s' ∧ s'.AtRest := by
  induction h : s.effort using Nat.strongRecOn generalizing s with
  | ind n ih =>
      by_cases hrest : s.AtRest
      · exact ⟨[], s, rfl, hrest⟩
      · obtain ⟨m, hm⟩ := not_forall.mp hrest
        obtain ⟨s₁, hs₁⟩ := Option.ne_none_iff_exists'.mp hm
        obtain ⟨moves, s', hmoves, hs'⟩ := ih s₁.effort (h ▸ perform?_effort hs₁) s₁ rfl
        refine ⟨m :: moves, s', ?_, hs'⟩
        rw [List.map_cons, follow?, List.foldlM_cons]
        change (s.perform? m).bind _ = _
        rw [hs₁]
        exact hmoves

end RespGateway.Server
