import ShiftRemap.Board.Position
import ShiftRemap.Host.Basic

/-!
# Tracking shift

The filter registers and unregisters left shift around the keys it types, so the registered modifiers do
not tell whether the user still holds shift. The tracker remembers it across these changes. It looks at a
key event before the event is registered: an idle matrix drops shift; otherwise, if left shift is
registered, a press means that shift is held and a release that it is not.
-/

namespace ShiftRemap

/-- What is remembered about shift. -/
structure ShiftTracker where
  /-- The user holds shift. -/
  shiftHeld : Bool := false
  deriving DecidableEq

namespace ShiftTracker

/-- Takes note of a key event that is not registered yet. -/
def track {σ : Type} [KeyHost σ] (e : KeyEvent) (t : ShiftTracker) (h : σ) : ShiftTracker × σ :=
  if !KeyHost.anyKeyHeld h then
    let h := KeyHost.setShift false h
    (⟨false⟩, if t.shiftHeld then KeyHost.note .shiftCleared h else h)
  else if (KeyHost.modifiers h).has .leftShift then
    if e.pressed then (⟨true⟩, h)
    else (⟨false⟩, if (KeyHost.modifiers h).isEmpty then KeyHost.setShift false h else h)
  else (t, h)

end ShiftTracker

end ShiftRemap
