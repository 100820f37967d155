import Mathlib.Data.List.Basic

/-!
# Segments that tile a sequence space

A segment is a start and a length.  Segments tile the space from a given
position when each starts where the one before it ends.
-/

universe u

namespace Tiling

variable {α : Type u} [Add α]

/-- Each segment starts where the one before it ends. -/
def Tiles : α → List (α × α) → Prop
  | _, [] => True
  | position, segment :: rest => segment.1 = position ∧ Tiles (position + segment.2) rest

/-- Where the segments end. -/
def tilesEnd : α → List (α × α) → α
  | position, [] => position
  | position, segment :: rest => tilesEnd (position + segment.2) rest

theorem tilesEnd_append (position : α) (segments : List (α × α)) (segment : α × α) :
    tilesEnd position (segments ++ [segment]) = tilesEnd position segments + segment.2 := by
  induction segments generalizing position with
  | nil => rfl
  | cons first rest ih => exact ih (position + first.2)

/-- A tiling grows by a segment that starts at its end. -/
theorem tiles_append {position : α} {segments : List (α × α)} {segment : α × α} :
    Tiles position (segments ++ [segment]) ↔
      Tiles position segments ∧ segment.1 = tilesEnd position segments := by
  induction segments generalizing position with
  | nil => simp [Tiles, tilesEnd]
  | cons first rest ih => simp [Tiles, tilesEnd, ih, and_assoc]

end Tiling
