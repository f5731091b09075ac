import ShiftRemap.Board.Reporter
import ShiftRemap.Remapper.Basic

/-!
# The keyboard

A keyboard runs every key event through the remapper and registers what the remapper lets pass. Its runs
are lists of operations: key events with the action of their position, changes of the layer, the end of a
tapping term, and receives from the report queue.
-/

namespace ShiftRemap

/-- A keyboard: what its host sees of it, and its remapper. -/
structure Keyboard where
  profile : Profile
  reporter : Reporter
  remapper : Remapper

namespace Keyboard

/-- A keyboard on which nothing is held. -/
def new (profile : Profile) (capacity : Nat) : Keyboard := ⟨profile, .new capacity, {}⟩

/-- The report of the registered keys. -/
def report (kb : Keyboard) : Report := kb.reporter.report

def highestLayer (kb : Keyboard) : UInt8 := kb.reporter.layers.highest

/-- The user holds shift. -/
def shiftHeld (kb : Keyboard) : Bool := kb.remapper.shiftHeld

/-- A dance waits for its tapping term to be over. -/
def dancePending (kb : Keyboard) : Bool := kb.remapper.dancePending

/-- Makes one layer the only active one. -/
def setLayer (n : UInt8) (kb : Keyboard) : Keyboard := { kb with reporter := kb.reporter.setLayer n }

/-- Resolves the pending dance. To be called when the tapping term is over. -/
def finishDance (kb : Keyboard) : Keyboard :=
  let (remapper, reporter) := kb.remapper.finishDance kb.reporter
  { kb with remapper, reporter }

/-- Registers or unregisters an action that passed the remapper. -/
def applyAction (action : Action) (e : KeyEvent) (r : Reporter) : Reporter :=
  match action with
  | .key chord => if e.pressed then KeyHost.registerChord chord r else KeyHost.unregisterChord chord r
  | _ => r

/-- Processes a key event of a position bound to `action`. -/
def processKey (action : Action) (e : KeyEvent) (kb : Keyboard) : Keyboard :=
  let step := kb.remapper.process kb.profile action e (kb.reporter.updateMatrix e)
  let reporter := if step.passes then applyAction action e step.host else step.host
  { kb with remapper := step.remapper, reporter }

/-- Takes at most `n` reports from the queue. -/
def receive (n : Nat) (kb : Keyboard) : List Report × Keyboard :=
  let (taken, reporter) := kb.reporter.receive n
  (taken, { kb with reporter })

/-- Takes all reports from the queue. -/
def drain (kb : Keyboard) : List Report × Keyboard :=
  let (taken, reporter) := kb.reporter.drain
  (taken, { kb with reporter })

/-! ## Runs -/

/-- An operation on a keyboard. -/
inductive Op
  | key (action : Action) (event : KeyEvent)
  | setLayer (layer : UInt8)
  | finishDance
  /-- The host takes at most so many reports. -/
  | receive (count : Nat)
  deriving DecidableEq

def apply (kb : Keyboard) : Op → Keyboard
  | .key action e => kb.processKey action e
  | .setLayer n => kb.setLayer n
  | .finishDance => kb.finishDance
  | .receive n => (kb.receive n).2

/-- The keyboard after a list of operations. -/
def run (kb : Keyboard) (ops : List Op) : Keyboard := ops.foldl apply kb

@[simp] theorem run_nil (kb : Keyboard) : kb.run [] = kb := rfl

@[simp] theorem run_cons (kb : Keyboard) (op : Op) (ops : List Op) :
    kb.run (op :: ops) = (kb.apply op).run ops := rfl

theorem run_append (kb : Keyboard) (ops ops' : List Op) : kb.run (ops ++ ops') = (kb.run ops).run ops' :=
  List.foldl_append

end Keyboard

end ShiftRemap
