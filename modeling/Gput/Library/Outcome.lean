import Mathlib.Tactic.TypeStar

/-!
# Outcomes of a fallible computation

A computation of the host language ends in one of three ways: with a value,
with a reported error, or with a panic.  Keeping the two failures apart lets a
model say "this call never panics" and "this call never returns an error" as
two different statements.
-/

universe u v

/-- How a fallible computation ends. -/
inductive Outcome (α : Type u) where
  | ok (value : α)
  | err (message : String)
  | panic
deriving DecidableEq, Repr

namespace Outcome

variable {α : Type u} {β : Type v}

/-- Sequencing: the first failure is the outcome of the whole computation. -/
def andThen (x : Outcome α) (f : α → Outcome β) : Outcome β :=
  match x with
  | .ok a => f a
  | .err message => .err message
  | .panic => .panic

instance : Monad Outcome where
  pure := .ok
  bind := andThen

@[simp] theorem pure_eq (a : α) : (pure a : Outcome α) = .ok a := rfl

@[simp] theorem ok_bind {α β : Type u} (a : α) (f : α → Outcome β) :
    (Outcome.ok a >>= f) = f a := rfl

@[simp] theorem err_bind {α β : Type u} (message : String) (f : α → Outcome β) :
    (Outcome.err message >>= f) = .err message := rfl

@[simp] theorem panic_bind {α β : Type u} (f : α → Outcome β) :
    ((Outcome.panic : Outcome α) >>= f) = .panic := rfl

/-- A successful sequence splits into its two successful halves. -/
theorem bind_eq_ok {α β : Type u} {x : Outcome α} {f : α → Outcome β} {b : β} :
    (x >>= f) = .ok b ↔ ∃ a, x = .ok a ∧ f a = .ok b := by
  cases x with
  | ok a => simp
  | err message => simp
  | panic => simp

/-- A check that reports an error when the condition fails. -/
def ensure (condition : Prop) [Decidable condition] (message : String) :
    Outcome PUnit.{u + 1} :=
  if condition then .ok PUnit.unit else .err message

theorem ensure_of {condition : Prop} [Decidable condition] (message : String)
    (h : condition) : ensure.{u} condition message = .ok PUnit.unit := by
  simp [ensure, h]

theorem ensure_of_not {condition : Prop} [Decidable condition] (message : String)
    (h : ¬ condition) : ensure.{u} condition message = .err message := by
  simp [ensure, h]

theorem ensure_eq_ok {condition : Prop} [Decidable condition] {message : String}
    {u : PUnit.{u + 1}} : ensure condition message = .ok u ↔ condition := by
  unfold ensure
  split <;> simp_all

/-- A check in front of a computation. -/
theorem ensure_bind {condition : Prop} [Decidable condition] {message : String} {β : Type u}
    (later : PUnit.{u + 1} → Outcome β) :
    (ensure condition message >>= later) =
      if condition then later PUnit.unit else .err message := by
  unfold ensure
  split <;> rfl

/-- The value behind an option whose absence is a panic. -/
def expect : Option α → Outcome α
  | some a => .ok a
  | none => .panic

@[simp] theorem expect_some (a : α) : expect (some a) = .ok a := rfl

/-- The value behind an option whose absence is an error. -/
def context (message : String) : Option α → Outcome α
  | some a => .ok a
  | none => .err message

@[simp] theorem context_some (message : String) (a : α) : context message (some a) = .ok a := rfl

/-- The values of a list of computations, or the first failure. -/
def collect : List (Outcome α) → Outcome (List α)
  | [] => .ok []
  | x :: xs => do
      let a ← x
      let as ← collect xs
      return a :: as

/-- Computations that all succeed. -/
theorem collect_map {f : β → Outcome α} {g : β → α} {inputs : List β}
    (h : ∀ input ∈ inputs, f input = .ok (g input)) :
    collect (inputs.map f) = .ok (inputs.map g) := by
  induction inputs with
  | nil => rfl
  | cons input inputs ih =>
      obtain ⟨hfirst, hrest⟩ := List.forall_mem_cons.mp h
      simp only [List.map_cons, collect, hfirst, ih hrest, ok_bind, pure_eq]

end Outcome
