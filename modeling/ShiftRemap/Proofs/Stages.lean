import ShiftRemap.Keyboard

/-!
# The stages of a key event

A key event goes through the remapper in three stages: `prepare`, where a press resolves the dances of the
other positions, the shift filter, and `dispatch`, which does what the filter left to do. `process_eq` puts
them together; a keyboard adds the matrix before them and the default action after them
(`processKey_of_taken`, `processKey_of_left`).

The filter takes an event over in two cases: a press whose key triggers a pair on the base layer
(`filter_press`), and a release at a position that is remembered with the trigger of a pair
(`filter_release`). All other events only pass the tracker.
-/

namespace ShiftRemap

namespace Remapper

variable {σ : Type} [KeyHost σ]

/-- The first stage: a press resolves the pending dances of the other positions. -/
def prepare (e : KeyEvent) (r : Remapper) (h : σ) : Remapper × σ :=
  if e.pressed then r.interruptDances e.position h else (r, h)

/-- The last stage: what is done with an event that the filter left. -/
def dispatch (profile : Profile) (action : Action) (e : KeyEvent) (r : Remapper) (h : σ) : Step σ :=
  match action with
  | .shortcut s =>
    if e.pressed then
      let chord := s.chord profile.hostOs
      ⟨r, h |> KeyHost.note (.shortcutTapped s profile.hostOs chord) |> KeyHost.tap chord, false⟩
    else ⟨r, h, false⟩
  | .layerTap layer chord => ⟨(r.dance layer chord e h).1, (r.dance layer chord e h).2, false⟩
  | .none | .key _ => ⟨r, h, true⟩

/-- What the filter makes of an event, with the flag that says whether it took the event over. -/
def filtered (profile : Profile) (action : Action) (e : KeyEvent) (r : Remapper) (h : σ) :
    Bool × Remapper × σ :=
  (r.prepare e h).1.filter profile action e (r.prepare e h).2

variable {profile : Profile} {action : Action} {e : KeyEvent} {r : Remapper} {h : σ}

theorem process_eq (profile : Profile) (action : Action) (e : KeyEvent) (r : Remapper) (h : σ) :
    r.process profile action e h =
      let f := r.filtered profile action e h
      if f.1 then ⟨f.2.1, f.2.2, false⟩ else f.2.1.dispatch profile action e f.2.2 := by
  unfold process filtered prepare dispatch
  cases action <;> rfl

/-- Where nothing dances, nothing is resolved. -/
theorem prepare_of_nil (hd : r.dances = []) : r.prepare e h = (r, h) := by
  cases r
  cases hd
  simp [prepare, interruptDances, Dance.settle]

/-- A release resolves no dance. -/
theorem filtered_release (profile : Profile) (action : Action) (p : Position) (r : Remapper) (h : σ) :
    r.filtered profile action (.release p) h = r.filter profile action (.release p) h := rfl

/-! ## What the filter takes over -/

/-- The pair that a press of `action` triggers. -/
def triggered? (profile : Profile) (action : Action) (h : σ) : Option Pair :=
  if KeyHost.highestLayer h == profile.baseLayer then profile.pairs.get? (triggerOf action) else none

/-- Remembers a hijacked press, or tells that there is no room for it. -/
def remember (p : Position) (k : KeyCode) (r : Remapper) (h : σ) : Remapper × σ :=
  match r.hijacked.insert? p k with
  | some hijacked => ({ r with hijacked }, h)
  | none => (r, KeyHost.note (.tooManyHijacked p) h)

theorem filter_press {p : Pair} (he : e.pressed = true) (hp : triggered? profile action h = some p) :
    r.filter profile action e h =
      let t := r.tracker.track e h
      (true, { r with tracker := t.1 }.remember e.position (triggerOf action)
        (ShiftFilter.press p t.1.shiftHeld t.2)) := by
  unfold triggered? at hp
  split at hp
  · rename_i hl
    simp only [filter, ShiftFilter.process, remember, he, hl, hp, if_true, Bool.and_self]
    simp only [Verdict.isHandled, decide_true, if_true]
    cases r.hijacked.insert? e.position (triggerOf action) <;> rfl
  · cases hp

theorem filter_press_left (he : e.pressed = true) (hp : triggered? profile action h = none) :
    r.filter profile action e h =
      (false, { r with tracker := (r.tracker.track e h).1 }, (r.tracker.track e h).2) := by
  unfold triggered? at hp
  simp only [filter, ShiftFilter.process, he, if_true, Bool.true_and]
  simp only [hp]
  rfl

theorem filter_release {k : KeyCode} {p : Pair} (he : e.pressed = false)
    (hk : r.hijacked.get? e.position = some k) (hp : profile.pairs.get? k = some p) :
    r.filter profile action e h =
      let t := r.tracker.track e h
      (true, { r with tracker := t.1, hijacked := r.hijacked.erase e.position },
        ShiftFilter.release p t.1.shiftHeld t.2) := by
  simp [filter, ShiftFilter.process, he, hk, hp, Verdict.isHandled]

theorem filter_release_left (he : e.pressed = false) (hk : r.hijacked.get? e.position = none) :
    r.filter profile action e h =
      (false, { r with tracker := (r.tracker.track e h).1 }, (r.tracker.track e h).2) := by
  simp [filter, ShiftFilter.process, he, hk, Verdict.isHandled]

theorem filter_release_unpaired {k : KeyCode} (he : e.pressed = false)
    (hk : r.hijacked.get? e.position = some k) (hp : profile.pairs.get? k = none) :
    r.filter profile action e h =
      let t := r.tracker.track e h
      (false, { r with tracker := t.1, hijacked := r.hijacked.erase e.position }, t.2) := by
  simp [filter, ShiftFilter.process, he, hk, hp, Verdict.isHandled]

theorem get?_of_triggered? {p : Pair} (hp : triggered? profile action h = some p) :
    profile.pairs.get? (triggerOf action) = some p := by
  unfold triggered? at hp
  split at hp
  · exact hp
  · cases hp

/-! ## What is left to do -/

/-- The first stage works on the dances. -/
theorem prepare_remapper (e : KeyEvent) (r : Remapper) (h : σ) :
    ∃ ds, (r.prepare e h).1 = { r with dances := ds } := by
  unfold prepare
  split
  · exact ⟨_, rfl⟩
  · exact ⟨r.dances, rfl⟩

theorem dance_remapper (n : UInt8) (c : Chord) (e : KeyEvent) (r : Remapper) (h : σ) :
    ∃ ds, (r.dance n c e h).1 = { r with dances := ds } := by
  unfold dance
  split
  · exact ⟨_, rfl⟩
  · exact ⟨_, rfl⟩
  · split
    · exact ⟨_, rfl⟩
    · exact ⟨r.dances, rfl⟩
  · exact ⟨r.dances, rfl⟩

/-- So does the last one. -/
theorem dispatch_remapper (profile : Profile) (action : Action) (e : KeyEvent) (r : Remapper) (h : σ) :
    ∃ ds, (r.dispatch profile action e h).remapper = { r with dances := ds } := by
  unfold dispatch
  split
  · split <;> exact ⟨r.dances, rfl⟩
  · exact dance_remapper ..
  · exact ⟨r.dances, rfl⟩
  · exact ⟨r.dances, rfl⟩

/-- Only the filter changes the tracker. -/
theorem tracker_prepare (e : KeyEvent) (r : Remapper) (h : σ) : (r.prepare e h).1.tracker = r.tracker := by
  obtain ⟨ds, hr⟩ := prepare_remapper e r h
  rw [hr]

theorem tracker_dispatch (profile : Profile) (action : Action) (e : KeyEvent) (r : Remapper) (h : σ) :
    (r.dispatch profile action e h).remapper.tracker = r.tracker := by
  obtain ⟨ds, hr⟩ := dispatch_remapper profile action e r h
  rw [hr]

/-- Only the filter changes what is remembered of hijacked presses. -/
theorem hijacked_prepare (e : KeyEvent) (r : Remapper) (h : σ) : (r.prepare e h).1.hijacked = r.hijacked := by
  obtain ⟨ds, hr⟩ := prepare_remapper e r h
  rw [hr]

theorem hijacked_dispatch (profile : Profile) (action : Action) (e : KeyEvent) (r : Remapper) (h : σ) :
    (r.dispatch profile action e h).remapper.hijacked = r.hijacked := by
  obtain ⟨ds, hr⟩ := dispatch_remapper profile action e r h
  rw [hr]

end Remapper

/-! ## Keyboards -/

namespace Keyboard

open Remapper

/-- The filter takes the event over. -/
def takes (action : Action) (e : KeyEvent) (kb : Keyboard) : Bool :=
  (kb.remapper.filtered kb.profile action e (kb.reporter.updateMatrix e)).1

/-- The reporter when the filter sees an event. -/
def seen (kb : Keyboard) (e : KeyEvent) : Reporter := (kb.remapper.prepare e (kb.reporter.updateMatrix e)).2

variable {action : Action} {e : KeyEvent} {kb : Keyboard}

variable {r : Remapper} {h : Reporter}

theorem finishDance_of_nil (hd : kb.remapper.dances = []) : kb.finishDance = kb := by
  rcases kb with ⟨_, _, ⟨_, _, _⟩⟩
  cases hd
  rfl

theorem processKey_of_taken
    (hf : kb.remapper.filtered kb.profile action e (kb.reporter.updateMatrix e) = (true, r, h)) :
    kb.takes action e = true ∧ kb.processKey action e = { kb with remapper := r, reporter := h } := by
  simp only [takes, processKey, process_eq, hf, if_true, Bool.false_eq_true, if_false, and_self]

theorem processKey_of_left
    (hf : kb.remapper.filtered kb.profile action e (kb.reporter.updateMatrix e) = (false, r, h)) :
    kb.takes action e = false ∧
      kb.processKey action e =
        let step := r.dispatch kb.profile action e h
        { kb with
          remapper := step.remapper
          reporter := if step.passes then applyAction action e step.host else step.host } := by
  simp only [takes, processKey, process_eq, hf, Bool.false_eq_true, if_false, and_self]

/-- After the filter nothing changes the tracker. -/
theorem tracker_processKey (action : Action) (e : KeyEvent) (kb : Keyboard) :
    (kb.processKey action e).remapper.tracker =
      (kb.remapper.filtered kb.profile action e (kb.reporter.updateMatrix e)).2.1.tracker := by
  show (kb.remapper.process kb.profile action e (kb.reporter.updateMatrix e)).remapper.tracker = _
  rw [process_eq]
  dsimp only
  split
  · rfl
  · exact tracker_dispatch ..

end Keyboard

end ShiftRemap
