import Mathlib.Data.List.Basic

/-!
# Machines that take one event after another

A machine has a start state and a partial step: an event is possible in a state
when the step is defined.  A run is the list of its events.  Histories are
functions of that list, so an invariant relates the events so far to the state
(`invariant`), and a rank that every counted event lowers bounds how many of
them can happen before a goal is reached (`responds`).
-/

universe u v

/-- A start state and a partial step. -/
structure EventMachine (σ : Type u) (ε : Type v) where
  start : σ
  step : σ → ε → Option σ

namespace EventMachine

variable {σ : Type u} {ε : Type v} (M : EventMachine σ ε)

/-- The state after some events, if all of them are possible. -/
def after (s : σ) : List ε → Option σ
  | [] => some s
  | e :: events => (M.step s e).bind fun s => after s events

/-- The events lead from the start to the state. -/
def Run (events : List ε) (s : σ) : Prop :=
  M.after M.start events = some s

variable {M}

theorem after_cons {s s' : σ} {e : ε} {events : List ε} :
    M.after s (e :: events) = some s' ↔
      ∃ t, M.step s e = some t ∧ M.after t events = some s' :=
  Option.bind_eq_some_iff

theorem after_append {s t : σ} {first second : List ε} (h : M.after s first = some t) :
    M.after s (first ++ second) = M.after t second := by
  induction first generalizing s with
  | nil =>
      cases h
      rfl
  | cons e first ih =>
      obtain ⟨s', hstep, hrest⟩ := after_cons.mp h
      rw [List.cons_append, after, hstep, Option.bind_some, ih hrest]

theorem Run.append {first second : List ε} {s t : σ} (run : M.Run first s)
    (h : M.after s second = some t) : M.Run (first ++ second) t :=
  (after_append run).trans h

/-- A history that goes on led to a state in which its next event was possible. -/
theorem Run.split {first second : List ε} {e : ε} {s : σ} (run : M.Run (first ++ e :: second) s) :
    ∃ t t', M.Run first t ∧ M.step t e = some t' := by
  have reached : ∀ {events : List ε} {start : σ}, M.after start (events ++ e :: second) = some s →
      ∃ t t', M.after start events = some t ∧ M.step t e = some t' := by
    intro events
    induction events with
    | nil =>
        intro start h
        obtain ⟨t', hstep, -⟩ := after_cons.mp h
        exact ⟨start, t', rfl, hstep⟩
    | cons d events ih =>
        intro start h
        obtain ⟨next, hnext, hrest⟩ := after_cons.mp h
        obtain ⟨t, t', hafter, hstep⟩ := ih hrest
        exact ⟨t, t', after_cons.mpr ⟨next, hnext, hafter⟩, hstep⟩
  exact reached run

/-- A relation between history and state that every step keeps holds on. -/
theorem invariant_from {I : List ε → σ → Prop}
    (step : ∀ past s e s', I past s → M.step s e = some s' → I (past ++ [e]) s') :
    ∀ {events past : List ε} {s s' : σ}, I past s → M.after s events = some s' →
      I (past ++ events) s'
  | [], past, s, s', hI, h => by
      cases h
      rwa [List.append_nil]
  | e :: events, past, s, s', hI, h => by
      obtain ⟨t, hstep, hrest⟩ := after_cons.mp h
      have := invariant_from step (step past s e t hI hstep) hrest
      rwa [List.append_assoc, List.singleton_append] at this

/-- The invariant rule for runs. -/
theorem Run.invariant {I : List ε → σ → Prop} (start : I [] M.start)
    (step : ∀ past s e s', I past s → M.step s e = some s' → I (past ++ [e]) s')
    {events : List ε} {s : σ} (run : M.Run events s) : I events s :=
  invariant_from step start run

/-- Every event of a run was possible in a state that was reached. -/
theorem Run.step_of_mem {events : List ε} {s : σ} (run : M.Run events s) {e : ε}
    (h : e ∈ events) : ∃ past t t', M.Run past t ∧ M.step t e = some t' := by
  have reached := @Run.invariant σ ε M
    (fun past s => M.Run past s ∧ ∀ e ∈ past, ∃ past t t', M.Run past t ∧ M.step t e = some t')
    ⟨rfl, fun _ hmem => absurd hmem List.not_mem_nil⟩ ?_ events s run
  · exact reached.2 e h
  · intro past s e s' hI hstep
    refine ⟨hI.1.append (after_cons.mpr ⟨s', hstep, rfl⟩), fun other hmem => ?_⟩
    rcases List.mem_append.mp hmem with hmem | hmem
    · exact hI.2 other hmem
    · cases List.mem_singleton.mp hmem
      exact ⟨past, s, s', hI.1, hstep⟩

/-- The response rule: while the goal is not reached, counted events lower the
rank and other events do not raise it; then the goal is reached after as many
counted events as the rank says. -/
theorem responds {I goal : List ε → σ → Prop} {counted : ε → Bool} {rank : List ε → σ → Nat}
    (step : ∀ past s e s', I past s → M.step s e = some s' → I (past ++ [e]) s')
    (stays : ∀ past s e s', I past s → goal past s → M.step s e = some s' →
      goal (past ++ [e]) s')
    (lowers : ∀ past s e s', I past s → ¬ goal past s → M.step s e = some s' →
      goal (past ++ [e]) s' ∨
        rank (past ++ [e]) s' + (if counted e then 1 else 0) ≤ rank past s)
    (positive : ∀ past s, I past s → ¬ goal past s → 0 < rank past s) :
    ∀ {events past : List ε} {s s' : σ}, I past s → M.after s events = some s' →
      goal past s ∨ rank past s ≤ events.countP counted → goal (past ++ events) s'
  | [], past, s, s', hI, h, hrank => by
      cases h
      rw [List.append_nil]
      rcases hrank with hgoal | hrank
      · exact hgoal
      · by_contra hgoal
        have := positive past s hI hgoal
        rw [List.countP_nil] at hrank
        omega
  | e :: events, past, s, s', hI, h, hrank => by
      obtain ⟨t, hstep, hrest⟩ := after_cons.mp h
      have hnext := step past s e t hI hstep
      have := responds step stays lowers positive hnext hrest (by
        by_cases hgoal : goal past s
        · exact Or.inl (stays past s e t hI hgoal hstep)
        · rcases lowers past s e t hI hgoal hstep with hreached | hlower
          · exact Or.inl hreached
          · right
            have hrank := hrank.resolve_left hgoal
            rw [List.countP_cons] at hrank
            omega)
      rwa [List.append_assoc, List.singleton_append] at this

section Parts

universe w x

variable {τ : Type w} {δ : Type x}

/-- A machine `N` runs inside `M`: its state is a view of the state of `M`, its
events are some of those of `M`, and the other events leave the view alone. -/
structure Part (M : EventMachine σ ε) (N : EventMachine τ δ) (view : σ → τ)
    (part : ε → Option δ) : Prop where
  start : view M.start = N.start
  moves : ∀ {s s' e d}, M.step s e = some s' → part e = some d →
    N.step (view s) d = some (view s')
  rests : ∀ {s s' e}, M.step s e = some s' → part e = none → view s' = view s

variable {N : EventMachine τ δ} {view : σ → τ} {part : ε → Option δ}

theorem Part.after (h : Part M N view part) {events : List ε} :
    ∀ {s s' : σ}, M.after s events = some s' →
      N.after (view s) (events.filterMap part) = some (view s') := by
  induction events with
  | nil =>
      intro s s' hafter
      cases hafter
      rfl
  | cons e events ih =>
      intro s s' hafter
      obtain ⟨t, hstep, hrest⟩ := after_cons.mp hafter
      cases hpart : part e with
      | none =>
          rw [List.filterMap_cons_none hpart, ← h.rests hstep hpart]
          exact ih hrest
      | some d =>
          rw [List.filterMap_cons_some hpart]
          exact after_cons.mpr ⟨view t, h.moves hstep hpart, ih hrest⟩

/-- A run of the whole is a run of every part. -/
theorem Part.run (h : Part M N view part) {events : List ε} {s : σ} (run : M.Run events s) :
    N.Run (events.filterMap part) (view s) := by
  have hafter := h.after run
  rwa [h.start] at hafter

end Parts

/-- A fact that one event establishes and the other events keep holds after all
events, in whatever order. -/
theorem foldl_establishes {step : σ → ε → σ} {holds : σ → Prop} {order : List ε} {e : ε}
    (establish : ∀ s, holds (step s e))
    (keep : ∀ other s, other ∈ order → e ≠ other → holds s → holds (step s other))
    (he : e ∈ order) (s : σ) : holds (order.foldl step s) := by
  have stays {later : List ε} (hlater : later ⊆ order) {s : σ} (h : holds s) :
      holds (later.foldl step s) := by
    induction later generalizing s with
    | nil => exact h
    | cons other later ih =>
        obtain ⟨hother, hlater⟩ := List.cons_subset.mp hlater
        refine ih hlater ?_
        by_cases heq : e = other
        · exact heq ▸ establish s
        · exact keep other s hother heq h
  obtain ⟨before, after, rfl⟩ := List.append_of_mem he
  rw [List.foldl_append, List.foldl_cons]
  exact stays (fun other hmem => List.mem_append_right _ (List.mem_cons_of_mem _ hmem))
    (establish _)

end EventMachine
