import ShiftRemap.Board.Position

/-!
# The matrix

The positions that are down, oldest first and each once. At most `Matrix.capacity` are kept: a press past
that is not recorded, so its position counts as up.
-/

namespace ShiftRemap

/-- The recorded positions that are down. -/
structure Matrix where
  held : List Position
  deriving DecidableEq

namespace Matrix

def capacity : Nat := 32

def empty : Matrix := ⟨[]⟩

/-- Some position is recorded as down. -/
def anyHeld (m : Matrix) : Bool := !m.held.isEmpty

/-- Records a press; `none` if there is no room for another position. -/
def press? (p : Position) (m : Matrix) : Option Matrix :=
  if p ∈ m.held then some m
  else if m.held.length < capacity then some ⟨m.held ++ [p]⟩
  else none

/-- Forgets a position. -/
def release (p : Position) (m : Matrix) : Matrix := ⟨m.held.filter (· ≠ p)⟩

theorem mem_held_press? {p q : Position} {m m' : Matrix} (h : m.press? p = some m') :
    q ∈ m'.held ↔ q = p ∨ q ∈ m.held := by
  unfold press? at h
  split at h
  · cases h; grind
  · split at h <;> cases h
    simp [or_comm]

@[simp] theorem mem_held_release {p q : Position} {m : Matrix} :
    q ∈ (m.release p).held ↔ q ∈ m.held ∧ q ≠ p := by
  simp [release]

end Matrix

end ShiftRemap
