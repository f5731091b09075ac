import ShiftRemap.Host.Recorder
import ShiftRemap.Proofs.Stages

/-!
# Maps between hosts

A map between hosts that keeps what a host answers and goes along with its calls (`HostMap`) is not noticed
by the remapper: it does the same on both hosts, and the map takes the one into the other (`process_map`). Two
maps matter: taking the recorder off a host (`Recorder.hostMap_host`), so a recorded host behaves like the host
itself, and putting earlier entries before what was recorded (`Recorder.hostMap_after`), so the calls that are
made do not depend on those made before.
-/

namespace ShiftRemap

variable {σ τ : Type} [KeyHost σ] [KeyHost τ]

/-- The map keeps the answers of a host and goes along with its calls. -/
structure HostMap (f : σ → τ) : Prop where
  anyKeyHeld : ∀ h, KeyHost.anyKeyHeld (f h) = KeyHost.anyKeyHeld h
  modifiers : ∀ h, KeyHost.modifiers (f h) = KeyHost.modifiers h
  highestLayer : ∀ h, KeyHost.highestLayer (f h) = KeyHost.highestLayer h
  register : ∀ k h, KeyHost.register k (f h) = f (KeyHost.register k h)
  unregister : ∀ k h, KeyHost.unregister k (f h) = f (KeyHost.unregister k h)
  activateLayer : ∀ n h, KeyHost.activateLayer n (f h) = f (KeyHost.activateLayer n h)
  deactivateLayer : ∀ n h, KeyHost.deactivateLayer n (f h) = f (KeyHost.deactivateLayer n h)
  note : ∀ n h, KeyHost.note n (f h) = f (KeyHost.note n h)

/-- The same answer with the host mapped. -/
def Remapper.Step.map (f : σ → τ) (s : Remapper.Step σ) : Remapper.Step τ := ⟨s.remapper, f s.host, s.passes⟩

namespace HostMap

variable {f : σ → τ} (hf : HostMap f)
include hf

/-! ## Keys and the filter -/

theorem setShift (on : Bool) (h : σ) : KeyHost.setShift on (f h) = f (KeyHost.setShift on h) := by
  cases on
  · exact hf.unregister _ _
  · exact hf.register _ _

theorem foldl_register (ks : List KeyCode) (h : σ) :
    ks.foldl (fun h k => KeyHost.register k h) (f h) = f (ks.foldl (fun h k => KeyHost.register k h) h) := by
  induction ks generalizing h with
  | nil => rfl
  | cons k ks ih => rw [List.foldl_cons, List.foldl_cons, hf.register, ih]

theorem foldl_unregister (ks : List KeyCode) (h : σ) :
    ks.foldl (fun h k => KeyHost.unregister k h) (f h) = f (ks.foldl (fun h k => KeyHost.unregister k h) h) := by
  induction ks generalizing h with
  | nil => rfl
  | cons k ks ih => rw [List.foldl_cons, List.foldl_cons, hf.unregister, ih]

theorem registerChord (c : Chord) (h : σ) : KeyHost.registerChord c (f h) = f (KeyHost.registerChord c h) := by
  rw [KeyHost.registerChord, hf.foldl_register, hf.register]
  rfl

theorem unregisterChord (c : Chord) (h : σ) :
    KeyHost.unregisterChord c (f h) = f (KeyHost.unregisterChord c h) := by
  rw [KeyHost.unregisterChord, hf.unregister, hf.foldl_unregister]
  rfl

theorem tap (c : Chord) (h : σ) : KeyHost.tap c (f h) = f (KeyHost.tap c h) := by
  rw [KeyHost.tap, hf.registerChord, hf.unregisterChord]
  rfl

theorem press (p : Pair) (held : Bool) (h : σ) : ShiftFilter.press p held (f h) = f (ShiftFilter.press p held h) := by
  simp only [ShiftFilter.press, hf.note, hf.setShift, hf.unregister, hf.register]

theorem release (p : Pair) (held : Bool) (h : σ) :
    ShiftFilter.release p held (f h) = f (ShiftFilter.release p held h) := by
  simp only [ShiftFilter.release, hf.unregister, hf.setShift]
  split <;> rfl

theorem track (t : ShiftTracker) (e : KeyEvent) (h : σ) : t.track e (f h) = ((t.track e h).1, f (t.track e h).2) := by
  simp only [ShiftTracker.track, hf.anyKeyHeld, hf.modifiers, hf.setShift, hf.note]
  split
  · split <;> rfl
  · split
    · split
      · rfl
      · split <;> rfl
    · rfl

theorem process (table : PairTable) (k : KeyCode) (e : KeyEvent) (on : Bool) (t : ShiftTracker) (h : σ) :
    ShiftFilter.process table k e on t (f h) =
      let s := ShiftFilter.process table k e on t h
      (s.1, s.2.1, f s.2.2) := by
  simp only [ShiftFilter.process, hf.track, hf.press, hf.release]
  split
  · split <;> rfl
  · rfl

theorem filter (profile : Profile) (action : Action) (e : KeyEvent) (r : Remapper) (h : σ) :
    r.filter profile action e (f h) =
      let s := r.filter profile action e h
      (s.1, s.2.1, f s.2.2) := by
  unfold Remapper.filter
  split
  · rw [hf.process]
  · simp only [hf.highestLayer, hf.process, hf.note]
    split
    · split <;> rfl
    · rfl

/-! ## Dances and the remapper -/

theorem begin (d : Dance) (o : Outcome) (h : σ) : d.begin o (f h) = f (d.begin o h) := by
  cases o with
  | unknown => rfl
  | singleTap => exact hf.registerChord _ _
  | singleHold => exact hf.activateLayer _ _
  | doubleTap => simp only [Dance.begin, hf.tap, hf.registerChord]

theorem undo (d : Dance) (h : σ) : d.undo (f h) = f (d.undo h) := by
  unfold Dance.undo
  split
  · exact hf.unregisterChord _ _
  · exact hf.unregisterChord _ _
  · exact hf.deactivateLayer _ _
  · rfl
  · rfl

theorem finish (d : Dance) (h : σ) :
    d.finish (f h) = ((d.finish h).1, (d.finish h).2.1, f (d.finish h).2.2) := by
  unfold Dance.finish
  split
  · rfl
  · simp only [hf.note, hf.begin, hf.undo]
    split <;> rfl

theorem danceRelease (d : Dance) (h : σ) :
    d.release (f h) = ((d.release h).1, (d.release h).2.1, f (d.release h).2.2) := by
  unfold Dance.release
  simp only [hf.undo]
  split <;> rfl

theorem settle (due : Dance → Bool) (ds : List Dance) (h : σ) :
    Dance.settle due ds (f h) = ((Dance.settle due ds h).1, f (Dance.settle due ds h).2) := by
  induction ds generalizing h with
  | nil => rfl
  | cons d ds ih =>
    unfold Dance.settle
    split
    · simp only [hf.finish, ih]
    · simp only [ih]

theorem prepare (e : KeyEvent) (r : Remapper) (h : σ) :
    r.prepare e (f h) = ((r.prepare e h).1, f (r.prepare e h).2) := by
  unfold Remapper.prepare Remapper.interruptDances
  split
  · simp only [hf.settle]
  · rfl

theorem finishDance (r : Remapper) (h : σ) : r.finishDance (f h) = ((r.finishDance h).1, f (r.finishDance h).2) := by
  unfold Remapper.finishDance
  simp only [hf.settle]

theorem dance (n : UInt8) (c : Chord) (e : KeyEvent) (r : Remapper) (h : σ) :
    r.dance n c e (f h) = ((r.dance n c e h).1, f (r.dance n c e h).2) := by
  unfold Remapper.dance
  split
  · rfl
  · rw [hf.danceRelease]
  · split
    · rfl
    · rw [hf.note]
  · rfl

theorem dispatch (profile : Profile) (action : Action) (e : KeyEvent) (r : Remapper) (h : σ) :
    r.dispatch profile action e (f h) = (r.dispatch profile action e h).map f := by
  unfold Remapper.dispatch
  split
  · simp only [hf.note, hf.tap]
    split <;> rfl
  · rw [hf.dance]
    rfl
  · rfl
  · rfl

/-- The remapper does the same with an event on both hosts. -/
theorem process_map (profile : Profile) (action : Action) (e : KeyEvent) (r : Remapper) (h : σ) :
    r.process profile action e (f h) = (r.process profile action e h).map f := by
  have hfiltered : r.filtered profile action e (f h) =
      let s := r.filtered profile action e h
      (s.1, s.2.1, f s.2.2) := by
    simp only [Remapper.filtered, hf.prepare, hf.filter]
  rw [Remapper.process_eq, Remapper.process_eq, hfiltered]
  dsimp only
  split
  · rfl
  · exact hf.dispatch ..

end HostMap

namespace Recorder

/-- A host of which nothing has been written down yet. -/
def on (h : σ) : Recorder σ := { host := h }

/-- The recorder with what `past` had written down before its own entries. -/
def after (past : Recorder σ) (r : Recorder σ) : Recorder σ :=
  ⟨r.host, past.calls ++ r.calls, past.notices ++ r.notices⟩

omit [KeyHost σ] in
theorem after_on (r : Recorder σ) : after r (on r.host) = r := by
  simp [after, on]

/-- A recorded host behaves like the host itself. -/
theorem hostMap_host : HostMap (Recorder.host : Recorder σ → σ) where
  anyKeyHeld _ := rfl
  modifiers _ := rfl
  highestLayer _ := rfl
  register _ _ := rfl
  unregister _ _ := rfl
  activateLayer _ _ := rfl
  deactivateLayer _ _ := rfl
  note _ _ := rfl

/-- What is written down does not depend on what was written down before. -/
theorem hostMap_after (past : Recorder σ) : HostMap past.after where
  anyKeyHeld _ := rfl
  modifiers _ := rfl
  highestLayer _ := rfl
  register k r := by simp [KeyHost.register, call, after]
  unregister k r := by simp [KeyHost.unregister, call, after]
  activateLayer n r := by simp [KeyHost.activateLayer, call, after]
  deactivateLayer n r := by simp [KeyHost.deactivateLayer, call, after]
  note n r := by simp [KeyHost.note, after]

end Recorder

end ShiftRemap
