import ShiftRemap.Proofs.HostInvariant
import ShiftRemap.Proofs.Registered

/-!
# Strokes

A run of a keyboard is watched together with the keys that are down (`Session`): each press adds a stroke,
which keeps the action of the press and whether the filter took it over, and the release of its position
ends it. In a run of a keyboard with real keys presses and releases alternate at each position, and a
release carries the action of its press (`Session.Alternates`).

Conditions on a run are conditions on each of its operations (`Session.Follows`), so an invariant is shown
for one operation and holds of the run (`Session.Follows.keeps`). Proved here: the recorded matrix is among
the positions that are down, and is all of them as long as it has room (`Tracked`).
-/

namespace ShiftRemap

/-- A key that is down. -/
structure Stroke where
  position : Position
  action : Action
  /-- The filter took the press over. -/
  hijacked : Bool
  deriving DecidableEq

/-- A keyboard, and the keys that are down on it. -/
structure Session where
  keyboard : Keyboard
  down : List Stroke

namespace Session

open Keyboard

/-- A new keyboard on which no key is down. -/
def new (profile : Profile) (capacity : Nat) : Session := ⟨.new profile capacity, []⟩

def apply (s : Session) : Op → Session
  | .key action ⟨p, true⟩ =>
    ⟨s.keyboard.processKey action (.press p), ⟨p, action, s.keyboard.takes action (.press p)⟩ :: s.down⟩
  | .key action ⟨p, false⟩ =>
    ⟨s.keyboard.processKey action (.release p), s.down.filter (·.position != p)⟩
  | .setLayer n => ⟨s.keyboard.setLayer n, s.down⟩
  | .finishDance => ⟨s.keyboard.finishDance, s.down⟩
  | .receive n => ⟨(s.keyboard.receive n).2, s.down⟩

/-- The session after a list of operations. -/
def run (s : Session) (ops : List Op) : Session := ops.foldl apply s

/-- Presses and releases alternate at each position, and a release carries the action of its press. -/
def Alternates (s : Session) : Op → Prop
  | .key _ ⟨p, true⟩ => ∀ k ∈ s.down, k.position ≠ p
  | .key action ⟨p, false⟩ => ∃ k ∈ s.down, k.position = p ∧ k.action = action
  | _ => True

instance (s : Session) (op : Op) : Decidable (s.Alternates op) :=
  match op with
  | .key _ ⟨_, true⟩ => inferInstanceAs (Decidable (∀ _ ∈ _, _))
  | .key _ ⟨_, false⟩ => inferInstanceAs (Decidable (∃ _ ∈ _, _))
  | .setLayer _ | .finishDance | .receive _ => .isTrue trivial

/-- The positions that are down. -/
def positions (s : Session) : List Position := s.down.map (·.position)

/-- Some key is down at the position. -/
def IsDown (s : Session) (p : Position) : Prop := ∃ k ∈ s.down, k.position = p

instance (s : Session) (p : Position) : Decidable (s.IsDown p) := inferInstanceAs (Decidable (∃ _ ∈ _, _))

variable {s : Session} {ops : List Op} {op : Op}

@[simp] theorem keyboard_apply (s : Session) (op : Op) : (s.apply op).keyboard = s.keyboard.apply op := by
  rcases op with ⟨action, p, _ | _⟩ | n | _ | n <;> rfl

theorem profile_apply (s : Session) (op : Op) : (s.apply op).keyboard.profile = s.keyboard.profile := by
  rcases op with ⟨action, p, _ | _⟩ | n | _ | n <;> rfl

/-- Watching does not change what is watched. -/
theorem keyboard_run (s : Session) (ops : List Op) : (s.run ops).keyboard = s.keyboard.run ops := by
  induction ops generalizing s with
  | nil => rfl
  | cons op ops ih => exact (ih _).trans (by rw [keyboard_apply]; rfl)

theorem profile_run (s : Session) (ops : List Op) : (s.run ops).keyboard.profile = s.keyboard.profile := by
  induction ops generalizing s with
  | nil => rfl
  | cons op ops ih => exact (ih _).trans (profile_apply s op)

theorem run_append (s : Session) (ops ops' : List Op) : s.run (ops ++ ops') = (s.run ops).run ops' :=
  List.foldl_append

/-! ## Conditions on runs -/

/-- Every operation of the run meets a session in which `ok` allows it. -/
def Follows (ok : Session → Op → Prop) : Session → List Op → Prop
  | _, [] => True
  | s, op :: ops => ok s op ∧ Follows ok (s.apply op) ops

instance decFollows {ok : Session → Op → Prop} [∀ s op, Decidable (ok s op)] :
    ∀ (s : Session) (ops : List Op), Decidable (Follows ok s ops)
  | _, [] => .isTrue trivial
  | s, op :: ops =>
    have : Decidable (Follows ok (s.apply op) ops) := decFollows _ _
    inferInstanceAs (Decidable (ok s op ∧ Follows ok (s.apply op) ops))

namespace Follows

variable {ok : Session → Op → Prop}

theorem append_iff {ops' : List Op} :
    Follows ok s (ops ++ ops') ↔ Follows ok s ops ∧ Follows ok (s.run ops) ops' := by
  induction ops generalizing s with
  | nil => simp [Follows, run]
  | cons op ops ih =>
    rw [List.cons_append, Follows, Follows, ih, and_assoc]
    rfl

/-- What every allowed operation keeps holds after the run. -/
theorem keeps {I : Session → Prop} (step : ∀ {s op}, I s → ok s op → I (s.apply op)) (h : Follows ok s ops)
    (hs : I s) : I (s.run ops) := by
  induction ops generalizing s with
  | nil => exact hs
  | cons op ops ih => exact ih h.2 (step hs h.1)

end Follows

end Session

/-! ## What the calls keep of a reporter -/

namespace Reporter

theorem putLayer_matrix (n : UInt8) (on : Bool) (r : Reporter) : (r.putLayer n on).matrix = r.matrix := by
  unfold putLayer
  split <;> rfl

theorem putLayer_slots (n : UInt8) (on : Bool) (r : Reporter) : (r.putLayer n on).slots = r.slots := by
  unfold putLayer
  split <;> rfl

theorem putLayer_mods (n : UInt8) (on : Bool) (r : Reporter) : (r.putLayer n on).mods = r.mods := by
  unfold putLayer
  split <;> rfl

theorem registered_putLayer {n : UInt8} {on : Bool} {r : Reporter} {k : KeyCode} :
    (r.putLayer n on).registered k ↔ r.registered k :=
  registered_congr (putLayer_mods n on r) (putLayer_slots n on r)

theorem callsKeep_matrix (m : Matrix) : CallsKeep fun r : Reporter => r.matrix = m where
  register hr := (matrix_register ..).trans hr
  unregister hr := (matrix_unregister ..).trans hr
  note hr _ := hr
  activateLayer hr := (putLayer_matrix ..).trans hr
  deactivateLayer hr := (putLayer_matrix ..).trans hr

theorem callsKeep_layers (l : Layers) : KeyCallsKeep fun r : Reporter => r.layers = l where
  register hr := (layers_register ..).trans hr
  unregister hr := (layers_unregister ..).trans hr
  note hr _ := hr

theorem callsKeep_tidy : CallsKeep fun r : Reporter => r.slots.Tidy where
  register hr := tidy_register hr _
  unregister hr := tidy_unregister hr _
  note hr _ := hr
  activateLayer {n h} hr := (putLayer_slots n true h).symm ▸ hr
  deactivateLayer {n h} hr := (putLayer_slots n false h).symm ▸ hr

theorem tidy_registerChord {r : Reporter} (hs : r.slots.Tidy) (c : Chord) :
    (KeyHost.registerChord c r).slots.Tidy :=
  callsKeep_tidy.registerChord hs

/-- A tap leaves nothing registered that was not. -/
theorem registered_tap {r : Reporter} {c : Chord} {k : KeyCode} (hs : r.slots.Tidy)
    (h : (KeyHost.tap c r).registered k) : r.registered k := by
  obtain ⟨h, hc⟩ := (registered_unregisterChord (tidy_registerChord hs c)).1 h
  exact (registered_registerChord h).resolve_right hc

theorem updateMatrix_slots (e : KeyEvent) (r : Reporter) : (r.updateMatrix e).slots = r.slots := by
  unfold updateMatrix
  split
  · split <;> rfl
  · rfl

theorem updateMatrix_mods (e : KeyEvent) (r : Reporter) : (r.updateMatrix e).mods = r.mods := by
  unfold updateMatrix
  split
  · split <;> rfl
  · rfl

theorem updateMatrix_layers (e : KeyEvent) (r : Reporter) : (r.updateMatrix e).layers = r.layers := by
  unfold updateMatrix
  split
  · split <;> rfl
  · rfl

theorem registered_updateMatrix {e : KeyEvent} {r : Reporter} {k : KeyCode} :
    (r.updateMatrix e).registered k ↔ r.registered k :=
  registered_congr (updateMatrix_mods e r) (updateMatrix_slots e r)

theorem setLayer_fields (n : UInt8) (r : Reporter) :
    (r.setLayer n).matrix = r.matrix ∧ (r.setLayer n).slots = r.slots ∧ (r.setLayer n).mods = r.mods := by
  unfold setLayer
  split <;> exact ⟨rfl, rfl, rfl⟩

end Reporter

namespace CallsKeep

variable {P : Reporter → Prop} (hP : CallsKeep P) {kb : Keyboard}
include hP

theorem applyAction {action : Action} {e : KeyEvent} {r : Reporter} (h : P r) :
    P (Keyboard.applyAction action e r) := by
  unfold Keyboard.applyAction
  split
  · split
    · exact hP.registerChord h
    · exact hP.unregisterChord h
  · exact h

/-- What the calls keep holds after a key event if it holds once the matrix has seen the event. -/
theorem processKey {action : Action} {e : KeyEvent} (h : P (kb.reporter.updateMatrix e)) :
    P (kb.processKey action e).reporter := by
  have hf : P (kb.remapper.filtered kb.profile action e (kb.reporter.updateMatrix e)).2.2 := hP.filtered h
  obtain ⟨taken, r, h', he⟩ : ∃ b r h', kb.remapper.filtered kb.profile action e (kb.reporter.updateMatrix e) =
    (b, r, h') := ⟨_, _, _, rfl⟩
  rw [he] at hf
  cases taken with
  | true =>
    rw [(Keyboard.processKey_of_taken he).2]
    exact hf
  | false =>
    rw [(Keyboard.processKey_of_left he).2]
    dsimp only
    split
    · exact hP.applyAction (hP.dispatch hf)
    · exact hP.dispatch hf

end CallsKeep

/-! ## The recorded matrix -/

namespace Session

open Keyboard

variable {s : Session} {op : Op}

theorem matrix_processKey (kb : Keyboard) (action : Action) (e : KeyEvent) :
    (kb.processKey action e).reporter.matrix = (kb.reporter.updateMatrix e).matrix :=
  (Reporter.callsKeep_matrix _).processKey rfl

theorem matrix_finishDance (kb : Keyboard) : kb.finishDance.reporter.matrix = kb.reporter.matrix :=
  (Reporter.callsKeep_matrix _).finishDance rfl

/-- Every recorded position is down. -/
def Covered (s : Session) : Prop := ∀ p ∈ s.keyboard.reporter.matrix.held, s.IsDown p

theorem Covered.apply (h : s.Covered) : (s.apply op).Covered := by
  rcases op with ⟨action, p, _ | _⟩ | n | _ | n
  · intro q hq
    simp only [Session.apply, matrix_processKey] at hq ⊢
    obtain ⟨hq, hne⟩ := Matrix.mem_held_release.1 hq
    obtain ⟨k, hk, rfl⟩ := h q hq
    exact ⟨k, List.mem_filter.2 ⟨hk, by simpa [KeyEvent.release] using hne⟩, rfl⟩
  · intro q hq
    simp only [Session.apply, matrix_processKey, Reporter.updateMatrix, KeyEvent.press, if_true] at hq ⊢
    have hold : q ∈ s.keyboard.reporter.matrix.held → ∃ k ∈ s.down, k.position = q := h q
    split at hq
    · rename_i m hm
      rcases (Matrix.mem_held_press? hm).1 hq with rfl | hq
      · exact ⟨_, List.mem_cons_self .., rfl⟩
      · obtain ⟨k, hk, rfl⟩ := hold hq
        exact ⟨k, List.mem_cons_of_mem _ hk, rfl⟩
    · obtain ⟨k, hk, rfl⟩ := hold hq
      exact ⟨k, List.mem_cons_of_mem _ hk, rfl⟩
  · intro q hq
    exact h q (by rwa [← (Reporter.setLayer_fields n _).1])
  · intro q hq
    exact h q (by rwa [← matrix_finishDance])
  · exact h

/-- The recorded positions are those that are down. -/
def Tracked (s : Session) : Prop := s.keyboard.reporter.matrix.held.Perm s.positions

theorem Tracked.anyHeld (h : s.Tracked) : s.keyboard.reporter.matrix.anyHeld = !s.down.isEmpty := by
  have hlen := h.length_eq
  rw [positions, List.length_map] at hlen
  rw [Matrix.anyHeld]
  cases hd : s.down <;> cases hm : s.keyboard.reporter.matrix.held <;> simp_all

/-- A press that there is room for is recorded. -/
theorem Tracked.updateMatrix (h : s.Tracked) {p : Position} (hp : ∀ k ∈ s.down, k.position ≠ p)
    (hroom : s.down.length < Matrix.capacity) :
    s.keyboard.reporter.updateMatrix (.press p) =
      { s.keyboard.reporter with matrix := ⟨s.keyboard.reporter.matrix.held ++ [p]⟩ } := by
  have hnew : p ∉ s.keyboard.reporter.matrix.held := by
    intro hm
    obtain ⟨k, hk, he⟩ := List.mem_map.1 (h.mem_iff.1 hm)
    exact hp k hk he
  have hlen : s.keyboard.reporter.matrix.held.length < Matrix.capacity := by
    rw [h.length_eq, positions, List.length_map]
    exact hroom
  have hpress : s.keyboard.reporter.matrix.press? p = some ⟨s.keyboard.reporter.matrix.held ++ [p]⟩ := by
    rw [Matrix.press?, if_neg hnew, if_pos hlen]
  simp only [Reporter.updateMatrix, KeyEvent.press, if_true, hpress]

theorem Tracked.apply (h : s.Tracked) (halt : s.Alternates op) (hroom : (s.apply op).down.length ≤ Matrix.capacity) :
    (s.apply op).Tracked := by
  rcases op with ⟨action, p, _ | _⟩ | n | _ | n
  · have hf := h.filter (· ≠ p)
    rw [positions, List.filter_map] at hf
    have hne : (fun k : Stroke => k.position != p) = (fun q => decide (q ≠ p)) ∘ (·.position) := by
      funext k; rw [Bool.eq_iff_iff]; simp
    rw [Tracked, show (s.apply (.key action ⟨p, false⟩)).keyboard.reporter.matrix = _ from matrix_processKey ..]
    simp only [Session.apply, positions, hne]
    exact hf
  · rw [Tracked, show (s.apply (.key action ⟨p, true⟩)).keyboard.reporter.matrix = _ from matrix_processKey ..,
      h.updateMatrix halt hroom]
    exact (List.perm_append_singleton _ _).trans (h.cons p)
  · rw [Tracked, show (s.apply (.setLayer n)).keyboard.reporter.matrix = _ from (Reporter.setLayer_fields n _).1]
    exact h
  · rw [Tracked, show (s.apply .finishDance).keyboard.reporter.matrix = _ from matrix_finishDance s.keyboard]
    exact h
  · exact h

/-- The tracker sees whether the event leaves a key down. -/
theorem Tracked.anyHeld_updateMatrix {action : Action} {e : KeyEvent} (h : s.Tracked)
    (halt : s.Alternates (.key action e)) (hroom : (s.apply (.key action e)).down.length ≤ Matrix.capacity) :
    KeyHost.anyKeyHeld (s.keyboard.reporter.updateMatrix e) = !(s.apply (.key action e)).down.isEmpty := by
  rw [← (h.apply halt hroom).anyHeld, keyboard_apply, Keyboard.apply, matrix_processKey]
  rfl

end Session

end ShiftRemap
