import ShiftRemap.Proofs.Strokes

/-!
# What tracking and the filter do to a reporter

The tracker changes the report only when the matrix is idle, and then it clears left shift. Otherwise its
flag follows the left shift bit: a press turns it on where the bit is set, a release turns it off
(`track_press`, `track_release`). A hijacked press sets left shift to the flag of the chord it types; the
release of the press lets go of both keys of the pair, and puts left shift to the tracked flag if the pair
restores shift.
-/

namespace ShiftRemap

/-! ## Tracking -/

namespace ShiftTracker

section Host

variable {σ : Type} [KeyHost σ] {t : ShiftTracker} {h : σ} {p : Position}

theorem track_idle {e : KeyEvent} (hi : KeyHost.anyKeyHeld h = false) : (t.track e h).1 = ⟨false⟩ := by
  unfold track
  simp only [hi, Bool.not_false, if_true]

theorem track_press (hm : KeyHost.anyKeyHeld h = true) :
    t.track (.press p) h = (⟨t.shiftHeld || (KeyHost.modifiers h).has .leftShift⟩, h) := by
  unfold track
  cases (KeyHost.modifiers h).has .leftShift <;> simp [hm, KeyEvent.press]

theorem track_release (hm : KeyHost.anyKeyHeld h = true) :
    t.track (.release p) h = (⟨t.shiftHeld && !(KeyHost.modifiers h).has .leftShift⟩, h) := by
  unfold track
  cases hs : (KeyHost.modifiers h).has .leftShift with
  | false => simp [hm]
  | true =>
    -- a byte with the left shift bit is not empty
    have he : (KeyHost.modifiers h).isEmpty = false := by
      rw [Bool.eq_false_iff]
      intro he
      have hz : KeyHost.modifiers h = .empty := Modifiers.ext (by simpa [Modifiers.isEmpty, Modifiers.empty] using he)
      rw [hz, Modifiers.has_empty] at hs
      cases hs
    simp [hm, he, KeyEvent.release]

end Host

variable {t : ShiftTracker} {e : KeyEvent} {r : Reporter} {k : KeyCode}

theorem registered_track (hs : r.slots.Tidy) (hk : (t.track e r).2.registered k) : r.registered k := by
  unfold track at hk
  split at hk
  · have hr : (KeyHost.setShift false r).registered k := by
      dsimp only at hk
      split at hk
      · exact Reporter.registered_note.1 hk
      · exact hk
    exact ((Reporter.registered_unregister hs).1 hr).1
  · split at hk
    · split at hk
      · exact hk
      · dsimp only at hk
        split at hk
        · exact ((Reporter.registered_unregister hs).1 hk).1
        · exact hk
    · exact hk

theorem not_registered_track (hi : KeyHost.anyKeyHeld r = false) : ¬ (t.track e r).2.registered .leftShift := by
  unfold track
  simp only [hi, Bool.not_false, if_true]
  have hf : ¬ (KeyHost.setShift false r).registered .leftShift := by
    rw [show KeyCode.leftShift = Modifier.leftShift.key from rfl, Reporter.registered_key,
      Reporter.has_setShift]
    decide
  split
  · rwa [Reporter.registered_note]
  · exact hf

end ShiftTracker

/-! ## The filter -/

namespace ShiftFilter

variable {r : Reporter} {p : Pair} {held : Bool} {k : KeyCode}

theorem registered_press (hs : r.slots.Tidy) (hk : (press p held r).registered k) :
    r.registered k ∨ k = .leftShift ∨ k = (p.output held).key := by
  have hn : (KeyHost.note (.hijacked p.trigger held (p.output held)) r).slots.Tidy :=
    Reporter.callsKeep_tidy.note hs
  rcases Reporter.registered_register.1 hk with hk | ⟨rfl, _⟩
  · have hk := ((Reporter.registered_unregister (Reporter.callsKeep_tidy.setShift hn)).1 hk).1
    rcases Reporter.registered_setShift hn hk with hk | ⟨_, rfl⟩
    · exact .inl (Reporter.registered_note.1 hk)
    · exact .inr (.inl rfl)
  · exact .inr (.inr rfl)

/-- The key of the chord is registered if there is room for it. -/
theorem registered_press_key (hr : r.hasRoom (p.output held).key) :
    (press p held r).registered (p.output held).key := by
  refine Reporter.registered_register.2 (.inr ⟨rfl, Reporter.hasRoom_unregister ?_⟩)
  intro hm
  rw [Reporter.slots_setShift]
  exact hr hm

theorem registered_release (hs : r.slots.Tidy) (hk : (release p held r).registered k) :
    r.registered k ∧ k ≠ p.normal.key ∧ k ≠ p.shifted.key ∨ held = true ∧ k = .leftShift := by
  have hn := Reporter.tidy_unregister hs p.normal.key
  have hd := Reporter.tidy_unregister hn p.shifted.key
  unfold release at hk
  have hr : (KeyHost.unregister p.shifted.key (KeyHost.unregister p.normal.key r)).registered k →
      r.registered k ∧ k ≠ p.normal.key ∧ k ≠ p.shifted.key := by
    rw [Reporter.registered_unregister hn, Reporter.registered_unregister hs, and_assoc]
    exact id
  split at hk
  · exact (Reporter.registered_setShift hd hk).imp_left hr
  · exact .inl (hr hk)

theorem has_press (hk : (p.output held).key.isModifier = false) :
    (press p held r).mods.has .leftShift = (p.output held).isShifted := by
  have hne : (p.output held).key ≠ Modifier.leftShift.key := by
    intro h; rw [h] at hk; cases hk
  unfold press
  simp only [Reporter.has_register, Reporter.has_unregister, Reporter.has_setShift, hne, decide_false,
    Bool.not_false, Bool.and_true, Bool.or_false]

theorem has_release (hn : p.normal.key.isModifier = false) (hd : p.shifted.key.isModifier = false) :
    (release p held r).mods.has .leftShift = if p.restoresShift then held else r.mods.has .leftShift := by
  have hn' : p.normal.key ≠ Modifier.leftShift.key := by intro h; rw [h] at hn; cases hn
  have hd' : p.shifted.key ≠ Modifier.leftShift.key := by intro h; rw [h] at hd; cases hd
  unfold release
  dsimp only
  split
  · exact Reporter.has_setShift _
  · simp only [Reporter.has_unregister, hn', hd', decide_false, Bool.not_false, Bool.and_true]

end ShiftFilter

end ShiftRemap
