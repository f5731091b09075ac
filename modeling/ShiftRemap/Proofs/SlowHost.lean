import Mathlib.Data.List.Forall2
import ShiftRemap.Proofs.HostMap
import ShiftRemap.Proofs.Untriggered

/-!
# Slow hosts

A keyboard does the same however many reports its queue holds and whenever its host takes them. Each keyboard is
compared with one whose queue never had room, so that every report it offered was dropped (`Keyboard.unqueued`).
Dropping reports is a map between hosts (`Reporter.hostMap_unqueued`), so the remapper does not notice it, and receives
are undone by it. Two keyboards that are given the same commands, with any queues and any receives in between, are
therefore taken to one and the same (`unqueued_run`), and what they have in common is what the map keeps (`SameWork`).
-/

namespace ShiftRemap

namespace Reporter

/-! ## A queue without room -/

/-- The entry as it would be had the queue been full. -/
def Entry.dropped : Entry → Entry
  | sent r => noted (.reportDropped r)
  | noted n => noted n

@[simp] theorem Entry.report?_dropped (e : Entry) : e.dropped.report? = e.report? := by
  cases e <;> rfl

/-- The same reporter with a queue that never had room. -/
def unqueued (r : Reporter) : Reporter := { r with queue := .empty 0, journal := r.journal.map Entry.dropped }

section Fields

variable (r : Reporter)

@[simp] theorem matrix_unqueued : r.unqueued.matrix = r.matrix := rfl

@[simp] theorem layers_unqueued : r.unqueued.layers = r.layers := rfl

@[simp] theorem slots_unqueued : r.unqueued.slots = r.slots := rfl

@[simp] theorem last_unqueued : r.unqueued.last = r.last := rfl

@[simp] theorem report_unqueued : r.unqueued.report = r.report := rfl

@[simp] theorem push?_unqueued (report : Report) : r.unqueued.queue.push? report = none := rfl

end Fields

theorem attempted_unqueued (r : Reporter) : r.unqueued.attempted = r.attempted := by
  simp [attempted, unqueued, List.filterMap_map]

theorem hear_unqueued (n : Notice) (r : Reporter) : r.unqueued.hear n = (r.hear n).unqueued := by
  simp [hear, unqueued, Entry.dropped]

theorem send_unqueued (r : Reporter) : r.unqueued.send = r.send.unqueued := by
  unfold send
  rw [report_unqueued, last_unqueued, push?_unqueued]
  split
  · rfl
  · -- whether the report entered the queue or not, its entry is the same
    cases r.queue.push? r.report <;> simp [unqueued, Entry.dropped]

theorem hold_unqueued (k : KeyCode) (r : Reporter) : r.unqueued.hold k = (r.hold k).unqueued := by
  unfold hold
  rw [slots_unqueued, hear_unqueued]
  split
  · rfl
  · split
    · rfl
    · split <;> rfl

theorem letGo_unqueued (k : KeyCode) (r : Reporter) : r.unqueued.letGo k = (r.letGo k).unqueued := by
  unfold letGo
  split
  · rfl
  · split <;> rfl

theorem putLayer_unqueued (n : UInt8) (on : Bool) (r : Reporter) :
    r.unqueued.putLayer n on = (r.putLayer n on).unqueued := by
  unfold putLayer
  rw [layers_unqueued, hear_unqueued]
  split <;> rfl

theorem setLayer_unqueued (n : UInt8) (r : Reporter) : r.unqueued.setLayer n = (r.setLayer n).unqueued := by
  unfold setLayer
  rw [hear_unqueued]
  split <;> rfl

theorem updateMatrix_unqueued (e : KeyEvent) (r : Reporter) : r.unqueued.updateMatrix e = (r.updateMatrix e).unqueued := by
  unfold updateMatrix
  rw [matrix_unqueued, hear_unqueued]
  split
  · split <;> rfl
  · rfl

/-- The remapper does not notice whether reports are dropped. -/
theorem hostMap_unqueued : HostMap unqueued where
  anyKeyHeld _ := rfl
  modifiers _ := rfl
  highestLayer _ := rfl
  register k r := (congrArg send (hold_unqueued k r)).trans (send_unqueued _)
  unregister k r := (congrArg send (letGo_unqueued k r)).trans (send_unqueued _)
  activateLayer n := putLayer_unqueued n true
  deactivateLayer n := putLayer_unqueued n false
  note := hear_unqueued

end Reporter

/-- A map between reporters goes along with what the keyboard registers. -/
theorem HostMap.applyAction {f : Reporter → Reporter} (hf : HostMap f) (action : Action) (e : KeyEvent) (r : Reporter) :
    Keyboard.applyAction action e (f r) = f (Keyboard.applyAction action e r) := by
  unfold Keyboard.applyAction
  split
  · rw [hf.registerChord, hf.unregisterChord]
    split <;> rfl
  · rfl

namespace Keyboard

variable {kb kb' : Keyboard} {op : Op} {ops ops' : List Op}

/-- The same keyboard with a queue that never had room. -/
def unqueued (kb : Keyboard) : Keyboard := { kb with reporter := kb.reporter.unqueued }

section Fields

variable (kb : Keyboard)

@[simp] theorem profile_unqueued : kb.unqueued.profile = kb.profile := rfl

@[simp] theorem reporter_unqueued : kb.unqueued.reporter = kb.reporter.unqueued := rfl

@[simp] theorem remapper_unqueued : kb.unqueued.remapper = kb.remapper := rfl

end Fields

/-! ## Commands -/

/-- The host takes reports. -/
def Op.isReceive : Op → Bool
  | .receive _ => true
  | .key _ _ | .setLayer _ | .finishDance => false

/-- The operations that the keyboard is given, whatever its host takes in between. -/
def commands (ops : List Op) : List Op := ops.filter (!·.isReceive)

/-- The keyboard after each of its commands. -/
def stations (kb : Keyboard) : List Op → List Keyboard
  | [] => []
  | op :: ops => if op.isReceive then (kb.apply op).stations ops else kb.apply op :: (kb.apply op).stations ops

theorem unqueued_processKey (kb : Keyboard) (action : Action) (e : KeyEvent) :
    (kb.processKey action e).unqueued = kb.unqueued.processKey action e := by
  have hmap := Reporter.hostMap_unqueued
  simp only [processKey, profile_unqueued, reporter_unqueued, remapper_unqueued, Reporter.updateMatrix_unqueued,
    hmap.process_map, Remapper.Step.map, hmap.applyAction]
  split <;> rfl

theorem unqueued_finishDance (kb : Keyboard) : kb.finishDance.unqueued = kb.unqueued.finishDance := by
  simp only [finishDance, reporter_unqueued, remapper_unqueued, Reporter.hostMap_unqueued.finishDance]
  rfl

theorem unqueued_setLayer (kb : Keyboard) (n : UInt8) : (kb.setLayer n).unqueued = kb.unqueued.setLayer n := by
  simp only [setLayer, reporter_unqueued, Reporter.setLayer_unqueued]
  rfl

/-- One operation: a command does the same without room in the queue, and a receive does nothing. -/
theorem unqueued_apply (kb : Keyboard) (op : Op) :
    (kb.apply op).unqueued = if op.isReceive then kb.unqueued else kb.unqueued.apply op := by
  cases op with
  | key action e => exact unqueued_processKey kb action e
  | setLayer n => exact unqueued_setLayer kb n
  | finishDance => exact unqueued_finishDance kb
  | receive n => rfl

/-- A whole run is that of its commands. -/
theorem unqueued_run (kb : Keyboard) (ops : List Op) : (kb.run ops).unqueued = kb.unqueued.run (commands ops) := by
  induction ops generalizing kb with
  | nil => rfl
  | cons op ops ih =>
    rw [run_cons, ih, unqueued_apply]
    unfold commands
    rw [List.filter_cons]
    cases op.isReceive <;> rfl

/-- So is every state on the way. -/
theorem unqueued_stations (kb : Keyboard) (ops : List Op) :
    (kb.stations ops).map unqueued = kb.unqueued.stations (commands ops) := by
  induction ops generalizing kb with
  | nil => rfl
  | cons op ops ih =>
    have hop := unqueued_apply kb op
    rw [stations, commands, List.filter_cons]
    cases hr : op.isReceive with
    | true =>
      rw [hr, if_pos rfl] at hop
      simp only [if_true, ih, hop]
      rfl
    | false =>
      rw [hr, if_neg Bool.false_ne_true] at hop
      simp only [Bool.false_eq_true, if_false, Bool.not_false, if_true, List.map_cons, ih, hop]
      rw [stations, hr]
      rfl

/-! ## What keyboards with different hosts have in common -/

/-- The keyboards did the same work: only which of their reports were dropped can differ, and what is in the queue. -/
structure SameWork (kb kb' : Keyboard) : Prop extends LooksLike kb kb' where
  hijacked : kb.remapper.hijacked = kb'.remapper.hijacked
  dances : kb.remapper.dances = kb'.remapper.dances
  /-- Had the queues never had room, the keyboards would be the same. -/
  unqueued : kb.unqueued = kb'.unqueued

theorem sameWork_iff : kb.SameWork kb' ↔ kb.unqueued = kb'.unqueued := by
  refine ⟨SameWork.unqueued, fun h => ?_⟩
  have hkeep {α : Type} (f : Keyboard → α) : f kb.unqueued = f kb'.unqueued := congrArg f h
  have hattempted := hkeep (·.reporter.attempted)
  simp only [Keyboard.unqueued, Reporter.attempted_unqueued] at hattempted
  exact {
    attempted := hattempted
    report := hkeep report
    shiftHeld := hkeep shiftHeld
    highestLayer := hkeep highestLayer
    dancePending := hkeep dancePending
    hijacked := hkeep (·.remapper.hijacked)
    dances := hkeep (·.remapper.dances)
    unqueued := h }

theorem sameWork_stations (h : kb.unqueued = kb'.unqueued) (hops : commands ops = commands ops') :
    List.Forall₂ SameWork (kb.stations ops) (kb'.stations ops') := by
  have hmaps : (kb.stations ops).map unqueued = (kb'.stations ops').map unqueued := by
    rw [unqueued_stations, unqueued_stations, h, hops]
  rw [← List.forall₂_eq_eq_eq, List.forall₂_map_left_iff, List.forall₂_map_right_iff] at hmaps
  exact hmaps.imp fun _ _ => sameWork_iff.2

/-- **A slow host changes nothing but which reports are dropped.** Two new keyboards with queues of any capacities that
are given the same commands, and whose hosts take reports anywhere in between, have done the same work after each
command and in the end. -/
theorem sameWork_of_commands {profile : Profile} {capacity capacity' : Nat} (h : commands ops = commands ops') :
    List.Forall₂ SameWork ((Keyboard.new profile capacity).stations ops) ((Keyboard.new profile capacity').stations ops') ∧
      ((Keyboard.new profile capacity).run ops).SameWork ((Keyboard.new profile capacity').run ops') := by
  have hnew : (Keyboard.new profile capacity).unqueued = (Keyboard.new profile capacity').unqueued := rfl
  refine ⟨sameWork_stations hnew h, sameWork_iff.2 ?_⟩
  rw [unqueued_run, unqueued_run, hnew, h]

/-- Comma is typed under shift, then a layer tap is tapped twice, with no report taken. -/
def neglected : List Op :=
  [.key (.key ⟨.leftShift, .empty⟩) (.press ⟨0, 0⟩), .key (.key ⟨.comma, .empty⟩) (.press ⟨0, 1⟩),
    .key (.key ⟨.comma, .empty⟩) (.release ⟨0, 1⟩), .key (.key ⟨.leftShift, .empty⟩) (.release ⟨0, 0⟩),
    .key (.layerTap 1 ⟨.keyA, .empty⟩) (.press ⟨0, 2⟩), .key (.layerTap 1 ⟨.keyA, .empty⟩) (.release ⟨0, 2⟩),
    .key (.layerTap 1 ⟨.keyA, .empty⟩) (.press ⟨0, 2⟩), .key (.layerTap 1 ⟨.keyA, .empty⟩) (.release ⟨0, 2⟩),
    .finishDance]

/-- The same, with reports taken after every other event. -/
def attended : List Op :=
  [.key (.key ⟨.leftShift, .empty⟩) (.press ⟨0, 0⟩), .key (.key ⟨.comma, .empty⟩) (.press ⟨0, 1⟩), .receive 2,
    .key (.key ⟨.comma, .empty⟩) (.release ⟨0, 1⟩), .key (.key ⟨.leftShift, .empty⟩) (.release ⟨0, 0⟩), .receive 9,
    .key (.layerTap 1 ⟨.keyA, .empty⟩) (.press ⟨0, 2⟩), .key (.layerTap 1 ⟨.keyA, .empty⟩) (.release ⟨0, 2⟩),
    .receive 1, .key (.layerTap 1 ⟨.keyA, .empty⟩) (.press ⟨0, 2⟩),
    .key (.layerTap 1 ⟨.keyA, .empty⟩) (.release ⟨0, 2⟩), .finishDance, .receive 9]

/-- Both work alike, although the first drops reports and the second does not. -/
theorem sameWork_attended :
    commands neglected = commands attended ∧
      List.Forall₂ SameWork ((Keyboard.new ⟨0, .linux, commaTable⟩ 1).stations neglected)
        ((Keyboard.new ⟨0, .linux, commaTable⟩ 8).stations attended) ∧
      ((Keyboard.new ⟨0, .linux, commaTable⟩ 1).run neglected).SameWork
        ((Keyboard.new ⟨0, .linux, commaTable⟩ 8).run attended) ∧
      ((Keyboard.new ⟨0, .linux, commaTable⟩ 1).run neglected).reporter.notices ≠
        ((Keyboard.new ⟨0, .linux, commaTable⟩ 8).run attended).reporter.notices := by
  have hcommands : commands neglected = commands attended := by decide +kernel
  obtain ⟨hstations, hrun⟩ := @sameWork_of_commands _ _ ⟨0, .linux, commaTable⟩ 1 8 hcommands
  exact ⟨hcommands, hstations, hrun, by decide +kernel⟩

end Keyboard

end ShiftRemap
