import ShiftRemap.Proofs.DanceTable
import ShiftRemap.Proofs.IdleShift
import ShiftRemap.Proofs.TakenOut

/-!
# What a shortcut leaves behind

A shortcut is typed on the press: its chord is tapped, and what the tap registered is let go before the next event.
The keys that are held keep their places meanwhile, even if all slots are taken, as long as they are not keys of the
chord. A held key that the chord needs as well is let go with it: that is how registered keys work, which are a set
and know nothing of the positions that hold them. `report_of_shortcut` is the report after the press, with the exact
condition under which it is the one before; control held under Copy is the case in which it is not
(`not_momentary_copyUnderControl`).
-/

namespace ShiftRemap.Keyboard

open Remapper Dance

variable {kb : Keyboard} {action : Action} {p : Position}

/-- Where no other dance is pending, a press that triggers nothing reaches the last stage with the reporter as the
matrix has left it. -/
theorem filtered_press_untriggered (ht : kb.profile.pairs.get? .no = none) (hs : SettledBut p kb.remapper.dances)
    (hop : ¬ kb.Triggers (.key action (.press p))) :
    ∃ r, kb.remapper.filtered kb.profile action (.press p) (kb.reporter.updateMatrix (.press p)) =
      (false, r, kb.reporter.updateMatrix (.press p)) := by
  have hprep := prepare_of_settledBut hs (kb.reporter.updateMatrix (.press p))
  have hnone : triggered? kb.profile action (kb.reporter.updateMatrix (.press p)) = none := by
    have hseen := triggered?_eq_none ht rfl hop
    rwa [seen, hprep] at hseen
  have hheld : KeyHost.anyKeyHeld (kb.reporter.updateMatrix (.press p)) = true := by
    have hany := anyHeld_press kb action p
    rwa [Session.matrix_processKey] at hany
  rw [filtered, hprep, filter_press_left rfl hnone, ShiftTracker.track_press hheld]
  exact ⟨_, rfl⟩

theorem settledBut_of_not_pending (h : kb.dancePending = false) (p : Position) : SettledBut p kb.remapper.dances := by
  intro d hd _
  simpa using List.any_eq_false.1 h d hd

/-- The press of a shortcut takes the keys of its chord out of the report. -/
theorem report_processKey_shortcut (ht : kb.profile.pairs.Built) (hs : kb.reporter.slots.Tidy)
    (hd : kb.dancePending = false) (s : Shortcut) (p : Position) :
    (kb.processKey (.shortcut s) (.press p)).report = kb.report.without (s.chord kb.profile.hostOs).keys := by
  have hop : ¬ kb.Triggers (.key (.shortcut s) (.press p)) := id
  obtain ⟨r, hf⟩ := filtered_press_untriggered ht.get?_no (settledBut_of_not_pending hd p) hop
  have htidy : (kb.reporter.updateMatrix (.press p)).slots.Tidy := (Reporter.updateMatrix_slots ..).symm ▸ hs
  rw [(processKey_of_left hf).2]
  show (KeyHost.tap _ (KeyHost.note _ _) : Reporter).report = _
  rw [Reporter.report_tap (Reporter.callsKeep_tidy.note htidy)]
  exact congrArg (Report.without _) (Reporter.report_updateMatrix ..)

/-- **What a shortcut leaves behind.** In every state that a keyboard can reach in which no dance is pending, the press
of a shortcut takes the keys of its chord out of the report, and leaves every other modifier bit and slot as it was.
So the report comes back exactly if none of these keys was registered. -/
theorem report_of_shortcut {profile : Profile} (ht : profile.pairs.Built) (capacity : Nat) (ops : List Op) :
    let kb := (Keyboard.new profile capacity).run ops
    kb.dancePending = false → ∀ s p,
      (kb.processKey (.shortcut s) (.press p)).report = kb.report.without (s.chord profile.hostOs).keys ∧
        ((kb.processKey (.shortcut s) (.press p)).report = kb.report ↔
          ∀ k ∈ (s.chord profile.hostOs).keys, ¬ kb.reporter.registered k) := by
  intro kb hd s p
  have hprofile : kb.profile = profile := run_profile _ ops
  have htidy := tidy_run profile capacity ops
  have hreport := report_processKey_shortcut (hprofile.symm ▸ ht) htidy hd s p
  rw [hprofile] at hreport
  refine ⟨hreport, ?_⟩
  rw [hreport]
  exact Reporter.without_eq_self_iff htidy

/-- All slots are taken, left shift is down, and a layer tap holds layer 2. -/
def fullBoard : List Op :=
  [.key (.key ⟨.keyA, .empty⟩) (.press ⟨1, 0⟩), .key (.key ⟨.keyB, .empty⟩) (.press ⟨1, 1⟩),
    .key (.key ⟨.keyC, .empty⟩) (.press ⟨1, 2⟩), .key (.key ⟨.keyD, .empty⟩) (.press ⟨1, 3⟩),
    .key (.key ⟨.keyE, .empty⟩) (.press ⟨1, 4⟩), .key (.key ⟨.keyZ, .empty⟩) (.press ⟨1, 5⟩),
    .key (.key ⟨.leftShift, .empty⟩) (.press ⟨0, 0⟩), .key (.layerTap 2 ⟨.keyF, .empty⟩) (.press ⟨0, 1⟩), .finishDance]

/-- Copy leaves a full board as it was; redo, which is typed with Z and left shift, takes these two out of it. -/
theorem report_of_shortcut_fullBoard :
    let kb := (Keyboard.new ⟨0, .macOs, commaTable⟩ 4).run fullBoard
    commaTable.Built ∧ kb.dancePending = false ∧
      (kb.processKey (.shortcut .copy) (.press ⟨2, 0⟩)).report = kb.report ∧
      (kb.processKey (.shortcut .redo) (.press ⟨2, 0⟩)).report = kb.report.without [.keyZ, .leftShift, .leftGui] ∧
      kb.report.without [.keyZ, .leftShift, .leftGui] ≠ kb.report := by
  intro kb
  have hlist : PairTable.ofList commaTable.pairs = .ok commaTable := rfl
  have ht := PairTable.built_of_ofList hlist
  have hd : kb.dancePending = false := by decide +kernel
  have hall := @report_of_shortcut ⟨0, .macOs, commaTable⟩ ht 4 fullBoard hd
  refine ⟨ht, hd, ?_, (hall .redo ⟨2, 0⟩).1, by decide +kernel⟩
  rw [(hall .copy ⟨2, 0⟩).1]
  decide +kernel

/-- Control is held, and lost when Copy is pressed, whose chord has control. -/
theorem not_momentary_copyUnderControl :
    ¬ ∀ (profile : Profile) (_ : profile.pairs.Built) (capacity : Nat) (ops : List Op),
      let kb := (Keyboard.new profile capacity).run ops
      kb.dancePending = false → ∀ s p, (kb.processKey (.shortcut s) (.press p)).report = kb.report := by
  intro h
  have hsame := h {} .empty 16 [.key (.key ⟨.leftCtrl, .empty⟩) (.press ⟨0, 0⟩)] (by decide +kernel) .copy ⟨0, 1⟩
  exact absurd hsame (by decide +kernel)

end ShiftRemap.Keyboard
