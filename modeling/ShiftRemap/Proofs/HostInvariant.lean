import ShiftRemap.Proofs.Stages

/-!
# Invariants of a host

The filter, the dances and the remapper change a host through its calls only. So a property that every call
keeps is kept by all they do: once for the calls that touch no layer (`KeyCallsKeep`), which are all that
the filter and the dances that a press interrupts make, and once for all calls (`CallsKeep`).
-/

namespace ShiftRemap

variable {σ : Type} [KeyHost σ]

/-- Registering, unregistering and the notices of the remapper keep `P`. The remapper does not tell of
dropped reports, which it never sees. -/
structure KeyCallsKeep (P : σ → Prop) : Prop where
  register : ∀ {k : KeyCode} {h : σ}, P h → P (KeyHost.register k h)
  unregister : ∀ {k : KeyCode} {h : σ}, P h → P (KeyHost.unregister k h)
  note : ∀ {n : Notice} {h : σ} (_ : P h) (_ : n.dropped? = none := by rfl), P (KeyHost.note n h)

/-- Every call keeps `P`. -/
structure CallsKeep (P : σ → Prop) : Prop extends KeyCallsKeep P where
  activateLayer : ∀ {n : UInt8} {h : σ}, P h → P (KeyHost.activateLayer n h)
  deactivateLayer : ∀ {n : UInt8} {h : σ}, P h → P (KeyHost.deactivateLayer n h)

/-! ## Keys and the filter -/

namespace KeyCallsKeep

variable {P : σ → Prop} (hP : KeyCallsKeep P) {h : σ}
include hP

theorem setShift {on : Bool} (hh : P h) : P (KeyHost.setShift on h) := by
  unfold KeyHost.setShift
  split
  · exact hP.register hh
  · exact hP.unregister hh

theorem foldl_register (ks : List KeyCode) (hh : P h) : P (ks.foldl (fun h k => KeyHost.register k h) h) := by
  induction ks generalizing h with
  | nil => exact hh
  | cons k ks ih => exact ih (hP.register hh)

theorem foldl_unregister (ks : List KeyCode) (hh : P h) :
    P (ks.foldl (fun h k => KeyHost.unregister k h) h) := by
  induction ks generalizing h with
  | nil => exact hh
  | cons k ks ih => exact ih (hP.unregister hh)

theorem registerChord {c : Chord} (hh : P h) : P (KeyHost.registerChord c h) :=
  hP.register (hP.foldl_register _ hh)

theorem unregisterChord {c : Chord} (hh : P h) : P (KeyHost.unregisterChord c h) :=
  hP.foldl_unregister _ (hP.unregister hh)

theorem tap {c : Chord} (hh : P h) : P (KeyHost.tap c h) := hP.unregisterChord (hP.registerChord hh)

theorem press {p : Pair} {held : Bool} (hh : P h) : P (ShiftFilter.press p held h) :=
  hP.register (hP.unregister (hP.setShift (hP.note hh)))

theorem release {p : Pair} {held : Bool} (hh : P h) : P (ShiftFilter.release p held h) := by
  unfold ShiftFilter.release
  split
  · exact hP.setShift (hP.unregister (hP.unregister hh))
  · exact hP.unregister (hP.unregister hh)

theorem track {t : ShiftTracker} {e : KeyEvent} (hh : P h) : P (t.track e h).2 := by
  unfold ShiftTracker.track
  split
  · dsimp only
    split
    · exact hP.note (hP.setShift hh)
    · exact hP.setShift hh
  · split
    · split
      · exact hh
      · dsimp only
        split
        · exact hP.setShift hh
        · exact hh
    · exact hh

theorem process {table : PairTable} {k : KeyCode} {e : KeyEvent} {on : Bool} {t : ShiftTracker} (hh : P h) :
    P (ShiftFilter.process table k e on t h).2.2 := by
  unfold ShiftFilter.process
  dsimp only
  split
  · dsimp only
    split
    · exact hP.press (hP.track hh)
    · exact hP.release (hP.track hh)
  · exact hP.track hh

theorem filter {profile : Profile} {action : Action} {e : KeyEvent} {r : Remapper} (hh : P h) :
    P (r.filter profile action e h).2.2 := by
  unfold Remapper.filter
  split
  · exact hP.process hh
  · dsimp only
    split
    · split
      · exact hP.process hh
      · exact hP.note (hP.process hh)
    · exact hP.process hh

/-! ## Interrupted dances -/

/-- Of all outcomes a hold alone touches a layer. -/
theorem begin {d : Dance} {o : Outcome} (ho : o ≠ .singleHold) (hh : P h) : P (d.begin o h) := by
  cases o with
  | unknown => exact hh
  | singleTap => exact hP.registerChord hh
  | singleHold => exact absurd rfl ho
  | doubleTap => exact hP.registerChord (hP.tap hh)

theorem undo {d : Dance} (ho : d.outcome? ≠ some .singleHold) (hh : P h) : P (d.undo h) := by
  unfold Dance.undo
  split
  · exact hP.unregisterChord hh
  · exact hP.unregisterChord hh
  · rename_i he
    exact absurd he ho
  · exact hh
  · exact hh

/-- An interrupted dance is no hold. -/
theorem finish {d : Dance} (hd : d.interrupted = true) (hh : P h) : P (d.finish h).2.2 := by
  have ho : Outcome.classify d.taps d.interrupted d.pressed ≠ .singleHold := by
    intro he
    have := (Outcome.classify_eq_singleHold_iff.1 he).2.1
    simp [hd] at this
  unfold Dance.finish
  split
  · exact hh
  · dsimp only
    split
    · exact hP.begin ho (hP.note hh)
    · exact hP.undo (fun he => ho (Option.some.inj he)) (hP.begin ho (hP.note hh))

theorem settle {due : Dance → Bool} {ds : List Dance} (hds : ∀ d ∈ ds, due d = true → d.interrupted = true)
    (hh : P h) : P (Dance.settle due ds h).2 := by
  induction ds generalizing h with
  | nil => exact hh
  | cons d ds ih =>
    have hrest : ∀ d' ∈ ds, due d' = true → d'.interrupted = true := fun d' hd' => hds d' (List.mem_cons_of_mem _ hd')
    unfold Dance.settle
    split
    · rename_i hd
      exact ih hrest (hP.finish (hds d (List.mem_cons_self ..) hd) hh)
    · exact ih hrest hh

/-- A press resolves dances that it has interrupted. -/
theorem interruptDances {p : Position} {r : Remapper} (hh : P h) : P (r.interruptDances p h).2 := by
  refine hP.settle (fun d hd hdue => ?_) hh
  obtain ⟨x, _, rfl⟩ := List.mem_map.1 hd
  by_cases hx : (x.position != p && !x.isFinished) = true
  · rw [if_pos hx]
    rfl
  · rw [if_neg hx] at hdue
    exact absurd hdue hx

theorem prepare {e : KeyEvent} {r : Remapper} (hh : P h) : P (r.prepare e h).2 := by
  unfold Remapper.prepare
  split
  · exact hP.interruptDances hh
  · exact hh

end KeyCallsKeep

/-! ## Dances and the remapper -/

namespace CallsKeep

variable {P : σ → Prop} (hP : CallsKeep P) {h : σ}
include hP

theorem begin {d : Dance} {o : Outcome} (hh : P h) : P (d.begin o h) := by
  by_cases ho : o = .singleHold
  · subst ho
    exact hP.activateLayer hh
  · exact hP.toKeyCallsKeep.begin ho hh

theorem undo {d : Dance} (hh : P h) : P (d.undo h) := by
  by_cases ho : d.outcome? = some .singleHold
  · unfold Dance.undo
    rw [ho]
    exact hP.deactivateLayer hh
  · exact hP.toKeyCallsKeep.undo ho hh

theorem finish {d : Dance} (hh : P h) : P (d.finish h).2.2 := by
  unfold Dance.finish
  split
  · exact hh
  · dsimp only
    split
    · exact hP.begin (hP.note hh)
    · exact hP.undo (hP.begin (hP.note hh))

theorem danceRelease {d : Dance} (hh : P h) : P (d.release h).2.2 := by
  unfold Dance.release
  dsimp only
  split
  · exact hP.undo hh
  · exact hh

theorem settle {due : Dance → Bool} (ds : List Dance) (hh : P h) : P (Dance.settle due ds h).2 := by
  induction ds generalizing h with
  | nil => exact hh
  | cons d ds ih =>
    unfold Dance.settle
    split
    · exact ih (hP.finish hh)
    · exact ih hh

theorem finishDance {r : Remapper} (hh : P h) : P (r.finishDance h).2 := hP.settle _ hh

theorem dance {layer : UInt8} {c : Chord} {e : KeyEvent} {r : Remapper} (hh : P h) :
    P (r.dance layer c e h).2 := by
  unfold Remapper.dance
  split
  · exact hh
  · exact hP.danceRelease hh
  · split
    · exact hh
    · exact hP.note hh
  · exact hh

theorem filtered {profile : Profile} {action : Action} {e : KeyEvent} {r : Remapper} (hh : P h) :
    P (r.filtered profile action e h).2.2 :=
  hP.filter (hP.prepare hh)

theorem dispatch {profile : Profile} {action : Action} {e : KeyEvent} {r : Remapper} (hh : P h) :
    P (r.dispatch profile action e h).host := by
  unfold Remapper.dispatch
  split
  · split
    · exact hP.tap (hP.note hh)
    · exact hh
  · exact hP.dance hh
  · exact hh
  · exact hh

end CallsKeep

end ShiftRemap
