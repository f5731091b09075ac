import ShiftRemap.Key.Code

/-!
# Key slots

The six places of a report for keys that are no modifiers. A key takes the first free place and keeps it
until it is removed; the other keys do not move.
-/

namespace ShiftRemap

/-- Six places, each holding a key or, when free, `KeyCode.no`. -/
structure Slots where
  cells : List KeyCode
  length_eq : cells.length = 6 := by rfl
  deriving DecidableEq

namespace Slots

/-- Every place is free. -/
def empty : Slots := ⟨.replicate 6 .no, rfl⟩

/-- Some place holds the key. -/
def holds (s : Slots) (k : KeyCode) : Bool := s.cells.contains k

/-- No place is free. -/
def isFull (s : Slots) : Bool := !s.cells.contains .no

/-- Puts the key into the first free place. -/
def place (k : KeyCode) (s : Slots) : Slots :=
  ⟨s.cells.replace .no k, by rw [List.length_replace, s.length_eq]⟩

/-- Frees the first place of the key. -/
def clear (k : KeyCode) (s : Slots) : Slots :=
  ⟨s.cells.replace k .no, by rw [List.length_replace, s.length_eq]⟩

/-- The bytes of the slots in a report. -/
def usages (s : Slots) : Vector UInt8 6 := ⟨(s.cells.map KeyCode.usage).toArray, by simp [s.length_eq]⟩

theorem toList_usages (s : Slots) : s.usages.toList = s.cells.map KeyCode.usage := by
  simp [usages, Vector.toList]

@[ext] theorem ext {s t : Slots} (h : s.cells = t.cells) : s = t := by
  cases s; cases t; cases h; rfl

end Slots

end ShiftRemap
