import ShiftRemap.Board.Position
import ShiftRemap.Host.Basic

/-!
# Tap dances

A layer-tap key is resolved late: it dances until another key is pressed or its tapping term is over. Then
the number of its taps and whether its key is down decide what it was (`Outcome.classify`): a tap types its
chord, a hold activates its layer, a double tap types the chord once and then holds it. What the outcome
registered or activated is undone when the key is released, at once if it is up already.
-/

namespace ShiftRemap

/-- The progress of the dance of one key. -/
structure Dance where
  position : Position
  layer : UInt8
  chord : Chord
  taps : Nat := 1
  pressed : Bool := true
  interrupted : Bool := false
  outcome? : Option Outcome := none
  deriving DecidableEq

namespace Dance

/-- Taps are counted up to this number. -/
def tapsMax : Nat := 255

/-- The dance that the first press of a key begins. -/
def start (position : Position) (layer : UInt8) (chord : Chord) : Dance := { position, layer, chord }

def isFinished (d : Dance) : Bool := d.outcome?.isSome

/-- Another press of the key. -/
def tap (d : Dance) : Dance := { d with taps := min (d.taps + 1) tapsMax, pressed := true }

/-- Another key was pressed. -/
def interrupt (d : Dance) : Dance := { d with interrupted := true }

variable {σ : Type} [KeyHost σ]

/-- Does what an outcome stands for. -/
def begin (d : Dance) (o : Outcome) (h : σ) : σ :=
  match o with
  | .singleTap => KeyHost.registerChord d.chord h
  | .singleHold => KeyHost.activateLayer d.layer h
  | .doubleTap => KeyHost.registerChord d.chord (KeyHost.tap d.chord h)
  | .unknown => h

/-- Undoes what the outcome stands for. -/
def undo (d : Dance) (h : σ) : σ :=
  match d.outcome? with
  | some .singleTap | some .doubleTap => KeyHost.unregisterChord d.chord h
  | some .singleHold => KeyHost.deactivateLayer d.layer h
  | some .unknown | none => h

/-- Resolves the dance. The flag says whether the dance is over, because its key is up already. -/
def finish (d : Dance) (h : σ) : Dance × Bool × σ :=
  if d.isFinished then (d, false, h)
  else
    let o := Outcome.classify d.taps d.interrupted d.pressed
    let h := d.begin o (KeyHost.note (.danceFinished d.position o) h)
    let d := { d with outcome? := some o }
    if d.pressed then (d, false, h) else (d, true, d.undo h)

/-- The key was released. The flag says whether the dance is over. -/
def release (d : Dance) (h : σ) : Dance × Bool × σ :=
  let d := { d with pressed := false }
  if d.isFinished then (d, true, d.undo h) else (d, false, h)

/-- Finishes the dances that are `due`, one after the other, and drops those that are over. -/
def settle (due : Dance → Bool) : List Dance → σ → List Dance × σ
  | [], h => ([], h)
  | d :: ds, h =>
    if due d then
      let (d, ended, h) := d.finish h
      let (ds, h) := settle due ds h
      (if ended then ds else d :: ds, h)
    else
      let (ds, h) := settle due ds h
      (d :: ds, h)

end Dance

end ShiftRemap
