import ShiftRemap.Pair.Table
import ShiftRemap.Remapper.Tracker

/-!
# The shift filter

What the host sees of a key that triggers a pair. On the press, the pair's chord for the tracked shift:
left shift is set to the chord's own shift flag, and the key is registered afresh, so that the host sees a
new stroke even if the key was down already. On the release both keys of the pair are let go, and shift is
put back to what the user holds, unless the pair leaves it alone (`Pair.restoresShift`). Other modifiers of
the pair's chords are not applied.
-/

namespace ShiftRemap

/-- Whether the filter took an event over. -/
inductive Verdict
  /-- The event is done with. -/
  | handled
  /-- The event is left as it was. -/
  | passThrough
  deriving DecidableEq

namespace Verdict

def isHandled (v : Verdict) : Bool := v = handled

def name : Verdict → String
  | handled => "Handled"
  | passThrough => "PassThrough"

end Verdict

namespace ShiftFilter

variable {σ : Type} [KeyHost σ]

/-- Types the pair's chord. -/
def press (p : Pair) (shiftHeld : Bool) (h : σ) : σ :=
  let output := p.output shiftHeld
  h |> KeyHost.note (.hijacked p.trigger shiftHeld output)
    |> KeyHost.setShift output.isShifted
    |> KeyHost.unregister output.key
    |> KeyHost.register output.key

/-- Lets go of the pair's keys. -/
def release (p : Pair) (shiftHeld : Bool) (h : σ) : σ :=
  let h := h |> KeyHost.unregister p.normal.key |> KeyHost.unregister p.shifted.key
  if p.restoresShift then KeyHost.setShift shiftHeld h else h

/-- Filters an event of `key`. Shift is tracked even where hijacking is not `enabled`. -/
def process (table : PairTable) (key : KeyCode) (e : KeyEvent) (enabled : Bool) (t : ShiftTracker) (h : σ) :
    Verdict × ShiftTracker × σ :=
  let (t, h) := t.track e h
  match if enabled then table.get? key else none with
  | some p => (.handled, t, if e.pressed then press p t.shiftHeld h else release p t.shiftHeld h)
  | none => (.passThrough, t, h)

end ShiftFilter

end ShiftRemap
