/-!
# Positions and key events

A position is a row and a column of the switch matrix; a key event says that the switch at a position
went down or came up.
-/

namespace ShiftRemap

/-- A switch of the matrix. -/
structure Position where
  row : UInt8
  col : UInt8
  deriving DecidableEq

/-- The text `(row, col)`. -/
def Position.text (p : Position) : String := "(" ++ toString p.row ++ ", " ++ toString p.col ++ ")"

/-- A change of one switch. -/
structure KeyEvent where
  position : Position
  pressed : Bool
  deriving DecidableEq

namespace KeyEvent

def press (p : Position) : KeyEvent := ⟨p, true⟩

def release (p : Position) : KeyEvent := ⟨p, false⟩

end KeyEvent

end ShiftRemap
