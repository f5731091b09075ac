import ShiftRemap.Key.Chord

/-!
# Shift pairs

A pair says what one key types: its `normal` chord without shift, and its `shifted` chord with shift, in
place of the symbol that the host would make of shift and that key. The pair is looked up by the key of
its normal chord, its *trigger*.
-/

namespace ShiftRemap

/-- A key's chord without shift, and the chord that takes its place under shift. -/
structure Pair where
  normal : Chord
  shifted : Chord
  deriving DecidableEq

namespace Pair

instance : Inhabited Pair := ⟨⟨default, default⟩⟩

/-- The key by which the pair is looked up. -/
def trigger (p : Pair) : KeyCode := p.normal.key

/-- The chord that is typed while shift is held or not. -/
def output (p : Pair) (shiftHeld : Bool) : Chord := if shiftHeld then p.shifted else p.normal

/-- Whether the end of the stroke puts shift back to what the user holds. It is left alone only by a pair
that goes from an unshifted to a shifted chord. -/
def restoresShift (p : Pair) : Bool := p.normal.isShifted || !p.shifted.isShifted

theorem restoresShift_eq_false_iff {p : Pair} :
    p.restoresShift = false ↔ p.normal.isShifted = false ∧ p.shifted.isShifted = true := by
  simp [restoresShift]

end Pair

end ShiftRemap
