import ShiftRemap.Host.Recorder
import ShiftRemap.Proofs.Dances

/-!
# The calls that a dance makes

What a recorder writes down when a chord is registered or let go, and when a dance is resolved. The calls of a
dance depend on the dance alone (`Dance.finishCalls`), so those of several dances that are resolved one after
the other are the calls of each in their order (`calls_settle`).
-/

namespace ShiftRemap

namespace Chord

/-- The calls that register the chord: its modifiers, then its key. -/
def registerCalls (c : Chord) : List HostCall := (KeyHost.comboKeys c.mods).map .register ++ [.register c.key]

/-- The calls that let go of the chord: its key, then its modifiers. -/
def unregisterCalls (c : Chord) : List HostCall := .unregister c.key :: (KeyHost.comboKeys c.mods).map .unregister

end Chord

namespace Dance

/-- The calls that an outcome begins with. -/
def beginCalls (d : Dance) : Outcome → List HostCall
  | .singleTap => d.chord.registerCalls
  | .singleHold => [.activateLayer d.layer]
  | .doubleTap => d.chord.registerCalls ++ d.chord.unregisterCalls ++ d.chord.registerCalls
  | .unknown => []

/-- The calls that undo what the outcome stands for. -/
def undoCalls (d : Dance) : List HostCall :=
  match d.outcome? with
  | some .singleTap | some .doubleTap => d.chord.unregisterCalls
  | some .singleHold => [.deactivateLayer d.layer]
  | some .unknown | none => []

/-- The calls that resolving the dance makes: what is begun is undone at once if the key is up. -/
def finishCalls (d : Dance) : List HostCall :=
  if d.isFinished then []
  else
    d.beginCalls (Outcome.classify d.taps d.interrupted d.pressed) ++
      if d.pressed then [] else d.classified.undoCalls

end Dance

/-! ## What is written down -/

section Recorded

variable {σ : Type} [KeyHost σ] (r : Recorder σ)

namespace Recorder

theorem calls_register (k : KeyCode) :
    (KeyHost.register k r).calls.toList = r.calls.toList ++ [.register k] :=
  Array.toList_push

theorem calls_unregister (k : KeyCode) :
    (KeyHost.unregister k r).calls.toList = r.calls.toList ++ [.unregister k] :=
  Array.toList_push

theorem calls_activateLayer (n : UInt8) :
    (KeyHost.activateLayer n r).calls.toList = r.calls.toList ++ [.activateLayer n] :=
  Array.toList_push

theorem calls_deactivateLayer (n : UInt8) :
    (KeyHost.deactivateLayer n r).calls.toList = r.calls.toList ++ [.deactivateLayer n] :=
  Array.toList_push

/-- A notice is no call. -/
theorem calls_note (n : Notice) : (KeyHost.note n r).calls = r.calls := rfl

theorem calls_foldl_register (ks : List KeyCode) :
    (ks.foldl (fun h k => KeyHost.register k h) r).calls.toList = r.calls.toList ++ ks.map .register := by
  induction ks generalizing r with
  | nil => simp
  | cons k ks ih => rw [List.foldl_cons, ih, calls_register, List.append_assoc]; rfl

theorem calls_foldl_unregister (ks : List KeyCode) :
    (ks.foldl (fun h k => KeyHost.unregister k h) r).calls.toList = r.calls.toList ++ ks.map .unregister := by
  induction ks generalizing r with
  | nil => simp
  | cons k ks ih => rw [List.foldl_cons, ih, calls_unregister, List.append_assoc]; rfl

theorem calls_registerChord (c : Chord) :
    (KeyHost.registerChord c r).calls.toList = r.calls.toList ++ c.registerCalls := by
  rw [KeyHost.registerChord, calls_register, calls_foldl_register, List.append_assoc]
  rfl

theorem calls_unregisterChord (c : Chord) :
    (KeyHost.unregisterChord c r).calls.toList = r.calls.toList ++ c.unregisterCalls := by
  rw [KeyHost.unregisterChord, calls_foldl_unregister, calls_unregister, List.append_assoc]
  rfl

end Recorder

namespace Dance

open Recorder

theorem calls_begin (d : Dance) (o : Outcome) :
    (d.begin o r).calls.toList = r.calls.toList ++ d.beginCalls o := by
  cases o with
  | unknown => exact (List.append_nil _).symm
  | singleTap => exact calls_registerChord r d.chord
  | singleHold => exact calls_activateLayer r d.layer
  | doubleTap =>
    rw [begin, calls_registerChord, KeyHost.tap, calls_unregisterChord, calls_registerChord]
    simp only [beginCalls, List.append_assoc]

theorem calls_undo (d : Dance) : (d.undo r).calls.toList = r.calls.toList ++ d.undoCalls := by
  cases ho : d.outcome? with
  | none => simp only [undo, undoCalls, ho, List.append_nil]
  | some o =>
    simp only [undo, undoCalls, ho]
    cases o with
    | unknown => exact (List.append_nil _).symm
    | singleTap => exact calls_unregisterChord r d.chord
    | singleHold => exact calls_deactivateLayer r d.layer
    | doubleTap => exact calls_unregisterChord r d.chord

theorem calls_finish (d : Dance) : (d.finish r).2.2.calls.toList = r.calls.toList ++ d.finishCalls := by
  unfold finishCalls
  cases hf : d.isFinished with
  | true =>
    rw [finish_of_finished hf, if_pos rfl]
    exact (List.append_nil _).symm
  | false =>
    have hbegun : (d.begun r).calls.toList =
        r.calls.toList ++ d.beginCalls (Outcome.classify d.taps d.interrupted d.pressed) := by
      rw [begun, calls_begin, calls_note]
    cases hp : d.pressed with
    | true =>
      rw [hp] at hbegun
      rw [finish_of_pressed hf hp]
      simpa using hbegun
    | false =>
      rw [hp] at hbegun
      rw [finish_of_released hf hp]
      simp [calls_undo, hbegun]

/-- Dances that are resolved one after the other make their calls one after the other. -/
theorem calls_settle (due : Dance → Bool) (ds : List Dance) :
    (settle due ds r).2.calls.toList = r.calls.toList ++ (ds.filter due).flatMap finishCalls := by
  induction ds generalizing r with
  | nil => simp [settle]
  | cons d ds ih =>
    unfold settle
    by_cases hd : due d = true
    · rw [if_pos hd, List.filter_cons_of_pos hd, List.flatMap_cons]
      dsimp only
      rw [ih, calls_finish, List.append_assoc]
    · rw [if_neg hd, List.filter_cons_of_neg hd]
      exact ih r

end Dance

end Recorded

end ShiftRemap
