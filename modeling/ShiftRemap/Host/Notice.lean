import ShiftRemap.Action
import ShiftRemap.Board.Layers
import ShiftRemap.Board.Position
import ShiftRemap.Dance.Outcome
import ShiftRemap.Report

/-!
# Notices

What the keyboard tells about its own work: a value for each occasion, with its level and its text.
-/

namespace ShiftRemap

/-- How much a notice matters. -/
inductive Level
  | trace | debug | warn
  deriving DecidableEq

def Level.name : Level → String
  | trace => "TRACE"
  | debug => "DEBUG"
  | warn => "WARN"

/-- An occasion that the keyboard reports. -/
inductive Notice
  /-- Nothing is held any more, so the tracked shift is dropped. -/
  | shiftCleared
  /-- A press of a trigger types a pair's chord. -/
  | hijacked (trigger : KeyCode) (shiftHeld : Bool) (output : Chord)
  /-- A shortcut is typed. -/
  | shortcutTapped (shortcut : Shortcut) (os : HostOs) (chord : Chord)
  /-- A dance is resolved. -/
  | danceFinished (position : Position) (outcome : Outcome)
  /-- There is no room to remember another hijacked press. -/
  | tooManyHijacked (position : Position)
  /-- There is no room for another dance. -/
  | tooManyDances (position : Position)
  /-- There is no room to record another position as down. -/
  | matrixFull (position : Position)
  /-- The keyboard does not have the layer. -/
  | noSuchLayer (layer : UInt8)
  /-- All six key slots are taken. -/
  | noFreeSlot (key : KeyCode)
  /-- The report queue is full. -/
  | reportDropped (report : Report)
  deriving DecidableEq

namespace Notice

def level : Notice → Level
  | shiftCleared => .trace
  | hijacked .. | shortcutTapped .. | danceFinished .. => .debug
  | tooManyHijacked .. | tooManyDances .. | matrixFull .. | noSuchLayer .. | noFreeSlot .. |
    reportDropped .. => .warn

def text : Notice → String
  | shiftCleared => "Matrix idle, clearing tracked shift"
  | hijacked trigger shiftHeld output =>
    "Hijack " ++ trigger.name ++ ": shift held " ++ toString shiftHeld ++ ", registering " ++ output.text
  | shortcutTapped shortcut os chord =>
    "Shortcut " ++ shortcut.name ++ " on " ++ os.name ++ ": tap " ++ chord.text
  | danceFinished position outcome =>
    "Tap dance at " ++ position.text ++ " finished as " ++ outcome.name
  | tooManyHijacked position =>
    "Too many hijacked keys held, " ++ position.text ++ " is released as a normal key"
  | tooManyDances position => "Too many tap dances in progress, ignoring " ++ position.text
  | matrixFull position => "Too many keys held in matrix, ignoring " ++ position.text
  | noSuchLayer layer =>
    "Not a valid layer " ++ toString layer ++ ", keyboard supports only " ++ toString layerCount ++ " layers"
  | noFreeSlot key => "No free slot in keyboard report, dropping " ++ key.name
  | reportDropped _ => "Keyboard report channel is full, dropping report"

/-- The report that found the queue full. -/
def dropped? : Notice → Option Report
  | reportDropped report => some report
  | _ => none

/-- The line of a notice in a log. -/
def line (n : Notice) : String := n.level.name ++ " " ++ n.text

end Notice

end ShiftRemap
