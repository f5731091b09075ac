import ShiftRemap.Proofs.NoStuckKeys
import ShiftRemap.Proofs.RunInvariant

/-!
# Shift and the idle matrix

What a key event makes of the tracked flag is decided before anything is done with the event: once a press
has interrupted the dances of the other positions, the matrix and the left shift bit say what becomes of it
(`shiftHeld_processKey`). So shift is tracked only while the matrix holds a position, it comes to be tracked
only on a press that finds left shift registered, and an event that leaves the matrix empty leaves left shift
clear, whatever its action was. None of this needs presses and releases to alternate.
-/

namespace ShiftRemap

open Keyboard Remapper

theorem ShiftTracker.shiftHeld_track {σ : Type} [KeyHost σ] (t : ShiftTracker) (e : KeyEvent) (h : σ) :
    (t.track e h).1.shiftHeld =
      (KeyHost.anyKeyHeld h && if (KeyHost.modifiers h).has .leftShift then e.pressed else t.shiftHeld) := by
  unfold track
  cases KeyHost.anyKeyHeld h with
  | false => rfl
  | true =>
    cases (KeyHost.modifiers h).has .leftShift with
    | false => rfl
    | true => cases hp : e.pressed <;> simp

namespace Remapper

variable {σ : Type} [KeyHost σ]

theorem tracker_remember (p : Position) (k : KeyCode) (r : Remapper) (h : σ) :
    (r.remember p k h).1.tracker = r.tracker := by
  unfold remember
  split <;> rfl

/-- The filter tracks shift whether it takes the event over or not. -/
theorem tracker_filter (profile : Profile) (action : Action) (e : KeyEvent) (r : Remapper) (h : σ) :
    (r.filter profile action e h).2.1.tracker = (r.tracker.track e h).1 := by
  cases he : e.pressed with
  | true =>
    cases hp : triggered? profile action h with
    | none => rw [filter_press_left he hp]
    | some p =>
      rw [filter_press he hp]
      exact tracker_remember ..
  | false =>
    cases hk : r.hijacked.get? e.position with
    | none => rw [filter_release_left he hk]
    | some k =>
      cases hp : profile.pairs.get? k with
      | none => rw [filter_release_unpaired he hk hp]
      | some p => rw [filter_release he hk hp]

end Remapper

namespace Keyboard

variable {kb : Keyboard} {p : Position}

theorem matrix_seen (kb : Keyboard) (action : Action) (e : KeyEvent) :
    (kb.seen e).matrix = (kb.processKey action e).reporter.matrix := by
  rw [Session.matrix_processKey]
  exact (Reporter.callsKeep_matrix _).prepare rfl

/-- What a key event makes of the tracked flag. -/
theorem shiftHeld_processKey (kb : Keyboard) (action : Action) (e : KeyEvent) :
    (kb.processKey action e).shiftHeld =
      ((kb.processKey action e).reporter.matrix.anyHeld &&
        if (kb.seen e).mods.has .leftShift then e.pressed else kb.shiftHeld) := by
  have htracker : (kb.processKey action e).remapper.tracker = (kb.remapper.tracker.track e (kb.seen e)).1 := by
    rw [tracker_processKey, filtered, tracker_filter, tracker_prepare]
    rfl
  show (kb.processKey action e).remapper.tracker.shiftHeld = _
  rw [htracker, ShiftTracker.shiftHeld_track, ← matrix_seen]
  rfl

/-- A press leaves the matrix with a position: its own, or all that there is room for. -/
theorem anyHeld_press (kb : Keyboard) (action : Action) (p : Position) :
    (kb.processKey action (.press p)).reporter.matrix.anyHeld = true := by
  rw [Session.matrix_processKey]
  have hne : (kb.reporter.updateMatrix (.press p)).matrix.held ≠ [] := by
    unfold Reporter.updateMatrix
    simp only [KeyEvent.press, if_true]
    cases hm : kb.reporter.matrix.press? p with
    | some m => exact List.ne_nil_of_mem ((Matrix.mem_held_press? hm).2 (.inl rfl))
    | none =>
      intro hnil
      have hheld : kb.reporter.matrix.held = [] := hnil
      rw [Matrix.press?, hheld] at hm
      simp [Matrix.capacity] at hm
  simpa [Matrix.anyHeld] using hne

/-- Shift is tracked only while the matrix holds a position. -/
theorem anyHeld_of_shiftHeld (profile : Profile) (capacity : Nat) (ops : List Op) :
    let kb := (Keyboard.new profile capacity).run ops
    kb.shiftHeld = true → kb.reporter.matrix.anyHeld = true := by
  have hnew : (Keyboard.new profile capacity).shiftHeld = false := rfl
  refine run_keeps (I := fun kb => kb.shiftHeld = true → kb.reporter.matrix.anyHeld = true)
    (fun {kb} op h => ?_) (fun h => absurd (hnew.symm.trans h) Bool.false_ne_true) ops
  intro hheld
  cases op with
  | key action e =>
    have hkey : (kb.processKey action e).shiftHeld = true := hheld
    rw [shiftHeld_processKey, Bool.and_eq_true] at hkey
    exact hkey.1
  | setLayer n =>
    show (kb.reporter.setLayer n).matrix.anyHeld = true
    rw [(Reporter.setLayer_fields n kb.reporter).1]
    exact h hheld
  | finishDance =>
    show kb.finishDance.reporter.matrix.anyHeld = true
    rw [Session.matrix_finishDance]
    exact h hheld
  | receive n => exact h hheld

/-- An event that leaves the matrix empty leaves shift untracked and left shift clear. -/
theorem cleared_of_idle (hs : kb.reporter.slots.Tidy) {action : Action} {e : KeyEvent}
    (hi : (kb.processKey action e).reporter.matrix.anyHeld = false) :
    (kb.processKey action e).shiftHeld = false ∧ (kb.processKey action e).report.leftShift = false := by
  obtain ⟨p, _ | _⟩ := e
  · rw [Session.matrix_processKey] at hi
    obtain ⟨hheld, hbit⟩ := @shift_cleared action p kb hs hi
    refine ⟨hheld, ?_⟩
    rw [show KeyCode.leftShift = Modifier.leftShift.key from rfl, Reporter.registered_key] at hbit
    exact Bool.eq_false_iff.2 hbit
  · rw [show (⟨p, true⟩ : KeyEvent) = .press p from rfl, anyHeld_press] at hi
    cases hi

/-- **Shift needs a held key.** In every state that a keyboard can reach, shift is tracked only while the
matrix holds a position. A key event that leaves the matrix empty leaves shift untracked and left shift clear.
An operation that makes shift tracked is a press that finds left shift registered, once it has interrupted
the dances of the other positions. -/
theorem shift_needs_held_key (profile : Profile) (capacity : Nat) (ops : List Op) :
    let kb := (Keyboard.new profile capacity).run ops
    (kb.shiftHeld = true → kb.reporter.matrix.held ≠ []) ∧
      (∀ action e, (kb.processKey action e).reporter.matrix.held = [] →
        (kb.processKey action e).shiftHeld = false ∧ (kb.processKey action e).report.leftShift = false) ∧
      (∀ op, kb.shiftHeld = false → (kb.apply op).shiftHeld = true →
        ∃ action p, op = .key action (.press p) ∧
          (kb.remapper.interruptDances p (kb.reporter.updateMatrix (.press p))).2.report.leftShift = true) := by
  intro kb
  refine ⟨fun hheld => ?_, fun action e hi => ?_, fun op hoff hon => ?_⟩
  · have hm := anyHeld_of_shiftHeld profile capacity ops hheld
    intro hnil
    rw [Matrix.anyHeld, hnil] at hm
    cases hm
  · refine cleared_of_idle (tidy_run profile capacity ops) ?_
    rw [Matrix.anyHeld, hi]
    rfl
  · cases op with
    | key action e =>
      have hkey : (kb.processKey action e).shiftHeld = true := hon
      rw [shiftHeld_processKey, hoff] at hkey
      obtain ⟨p, pressed⟩ := e
      cases hbit : (kb.seen ⟨p, pressed⟩).mods.has .leftShift with
      | false => simp [hbit] at hkey
      | true =>
        obtain rfl : pressed = true := by simp [hbit] at hkey; exact hkey.2
        exact ⟨action, p, rfl, hbit⟩
    -- nothing but a key event reaches the tracker
    | setLayer n => exact absurd (hoff.symm.trans hon) Bool.false_ne_true
    | finishDance => exact absurd (hoff.symm.trans hon) Bool.false_ne_true
    | receive n => exact absurd (hoff.symm.trans hon) Bool.false_ne_true

/-- Left shift is down, and nothing else. -/
def shiftDown : Keyboard := (Keyboard.new {} 2).run [.key (.key ⟨.leftShift, .empty⟩) (.press ⟨0, 0⟩)]

theorem shift_needs_held_key_shiftDown :
    shiftDown.shiftHeld = false ∧
      (shiftDown.apply (.key (.key ⟨.keyA, .empty⟩) (.press ⟨0, 1⟩))).shiftHeld = true ∧
      (∃ action p, (.key (.key ⟨.keyA, .empty⟩) (.press ⟨0, 1⟩) : Op) = .key action (.press p) ∧
        (shiftDown.remapper.interruptDances p (shiftDown.reporter.updateMatrix (.press p))).2.report.leftShift = true) ∧
      (shiftDown.processKey (.key ⟨.leftShift, .empty⟩) (.release ⟨0, 0⟩)).report.leftShift = false := by
  have hoff : shiftDown.shiftHeld = false := by decide +kernel
  have hon : (shiftDown.apply (.key (.key ⟨.keyA, .empty⟩) (.press ⟨0, 1⟩))).shiftHeld = true := by decide +kernel
  have hall := shift_needs_held_key {} 2 [.key (.key ⟨.leftShift, .empty⟩) (.press ⟨0, 0⟩)]
  exact ⟨hoff, hon, hall.2.2 _ hoff hon, (hall.2.1 _ _ (by decide +kernel)).2⟩

end Keyboard

end ShiftRemap
