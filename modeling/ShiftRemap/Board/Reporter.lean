import ShiftRemap.Board.Matrix
import ShiftRemap.Board.Queue
import ShiftRemap.Board.Slots
import ShiftRemap.Host.Basic

/-!
# The reporter

The keyboard as the host of the remapper: the positions that are down, the active layers, and the
registered keys, which make the report. Each change of the report is offered to the report queue; a report
that finds the queue full is dropped. The journal keeps, in order, every report that was offered and every
notice (`Reporter.attempted`, `Reporter.notices`).
-/

namespace ShiftRemap

/-- Something the reporter did. -/
inductive Reporter.Entry
  /-- A report entered the queue. -/
  | sent (report : Report)
  /-- A notice was heard. A report that did not enter the queue is a notice. -/
  | noted (notice : Notice)
  deriving DecidableEq

/-- The state of the keyboard as its host sees it. -/
structure Reporter where
  matrix : Matrix
  layers : Layers
  mods : Modifiers
  slots : Slots
  /-- The last report that was offered to the queue. -/
  last : Report
  queue : ReportQueue
  journal : Array Reporter.Entry

namespace Reporter

/-- A keyboard on which nothing is held, with a queue of the given capacity. -/
def new (capacity : Nat) : Reporter :=
  ⟨.empty, .none, .empty, .empty, .idle, .empty capacity, #[]⟩

namespace Entry

/-- The report of an entry, whether it entered the queue or not. -/
def report? : Entry → Option Report
  | sent r | noted (.reportDropped r) => some r
  | noted _ => none

def notice? : Entry → Option Notice
  | sent _ => none
  | noted n => some n

end Entry

/-- The reports that were offered to the queue, oldest first. -/
def attempted (r : Reporter) : List Report := r.journal.toList.filterMap Entry.report?

/-- The notices, oldest first. -/
def notices (r : Reporter) : List Notice := r.journal.toList.filterMap Entry.notice?

/-- The same reporter with an empty journal. -/
def clearJournal (r : Reporter) : Reporter := { r with journal := #[] }

/-- The report of the registered keys. -/
def report (r : Reporter) : Report := { modifier := r.mods.toByte, keycodes := r.slots.usages }

def hear (n : Notice) (r : Reporter) : Reporter := { r with journal := r.journal.push (.noted n) }

/-- Offers the report to the queue if it differs from the last one offered. -/
def send (r : Reporter) : Reporter :=
  if r.report = r.last then r
  else
    match r.queue.push? r.report with
    | some queue => { r with last := r.report, queue, journal := r.journal.push (.sent r.report) }
    | none => { r with last := r.report, journal := r.journal.push (.noted (.reportDropped r.report)) }

/-- Registers a key without sending the report. -/
def hold (k : KeyCode) (r : Reporter) : Reporter :=
  match k.modifier? with
  | some m => { r with mods := r.mods.insert m }
  | none =>
    if k = .no ∨ r.slots.holds k then r
    else if r.slots.isFull then r.hear (.noFreeSlot k)
    else { r with slots := r.slots.place k }

/-- Unregisters a key without sending the report. -/
def letGo (k : KeyCode) (r : Reporter) : Reporter :=
  match k.modifier? with
  | some m => { r with mods := r.mods.erase m }
  | none => if k = .no then r else { r with slots := r.slots.clear k }

/-- Activates or deactivates a layer that the keyboard has. -/
def putLayer (n : UInt8) (active : Bool) (r : Reporter) : Reporter :=
  match r.layers.put? n active with
  | some layers => { r with layers }
  | none => r.hear (.noSuchLayer n)

/-- Makes one layer the only active one. -/
def setLayer (n : UInt8) (r : Reporter) : Reporter :=
  match Layers.only? n with
  | some layers => { r with layers }
  | none => r.hear (.noSuchLayer n)

/-- Records the change of a switch. -/
def updateMatrix (e : KeyEvent) (r : Reporter) : Reporter :=
  if e.pressed then
    match r.matrix.press? e.position with
    | some matrix => { r with matrix }
    | none => r.hear (.matrixFull e.position)
  else { r with matrix := r.matrix.release e.position }

instance : KeyHost Reporter where
  anyKeyHeld r := r.matrix.anyHeld
  modifiers r := r.mods
  highestLayer r := r.layers.highest
  register k r := (r.hold k).send
  unregister k r := (r.letGo k).send
  activateLayer n := putLayer n true
  deactivateLayer n := putLayer n false
  note := hear

/-- Takes at most `n` reports from the queue. -/
def receive (n : Nat) (r : Reporter) : List Report × Reporter :=
  let (taken, queue) := r.queue.take n
  (taken, { r with queue })

/-- Takes all reports from the queue. -/
def drain (r : Reporter) : List Report × Reporter :=
  let (taken, queue) := r.queue.drain
  (taken, { r with queue })

end Reporter

end ShiftRemap
