import ShiftRemap.Proofs.IdleShift
import ShiftRemap.Proofs.TakenOut

/-!
# The order of releases

A release that the filter does not take over passes the tracker and lets go of the keys of its chord. Which release of
a list does what depends on its place: the first one drops the tracked shift if left shift is registered, and the one
that leaves the matrix empty clears left shift. What all of them leave behind does not depend on it (`LetGo`): it is
read off the positions and the keys that were released, and so any order of the releases leads to the same state
(`sameState_of_perm`). Only the reports sent on the way differ.

Each release leaves what `LetGo` says of it (`letGo_release`), and what two lists of releases leave, one after the
other, is what they leave as one (`LetGo.trans`).
-/

namespace ShiftRemap.Keyboard

variable {kb kb' kb'' : Keyboard} {p : Position} {c : Chord} {l l' : List (Position × Chord)}

/-- Releases at these positions, bound to these chords, one after the other. -/
def releases (l : List (Position × Chord)) : List Op := l.map fun x => .key (.key x.2) (.release x.1)

/-- What releases at these positions, bound to these chords, make of a keyboard that has no press recorded for them. -/
structure LetGo (l : List (Position × Chord)) (kb kb' : Keyboard) : Prop where
  matrix : kb'.reporter.matrix.held = kb.reporter.matrix.held.filter (· ∉ l.map Prod.fst)
  layers : kb'.reporter.layers = kb.reporter.layers
  hijacked : kb'.remapper.hijacked = kb.remapper.hijacked
  dances : kb'.remapper.dances = kb.remapper.dances
  /-- Shift is tracked as it was if a position is still down and left shift was not registered. -/
  shiftHeld : kb'.shiftHeld = (kb.shiftHeld && kb'.reporter.matrix.anyHeld && !kb.report.leftShift)
  /-- The keys of the chords are taken out of the report, and left shift if no position is down any more. -/
  report : kb'.report = kb.report.without
    (l.flatMap (·.2.keys) ++ if kb'.reporter.matrix.anyHeld then [] else [.leftShift])

/-! ## One release -/

/-- A release of which no press is recorded. -/
theorem processKey_release_unrecorded (hk : kb.remapper.hijacked.get? p = none) (c : Chord) :
    kb.processKey (.key c) (.release p) =
      let t := kb.remapper.tracker.track (.release p) (kb.reporter.updateMatrix (.release p))
      { kb with
        remapper := { kb.remapper with tracker := t.1 }
        reporter := KeyHost.unregisterChord c t.2 } := by
  have hf := (Remapper.filtered_release kb.profile (.key c) p kb.remapper (kb.reporter.updateMatrix (.release p))).trans
    (Remapper.filter_release_left rfl hk)
  exact (processKey_of_left hf).2

/-- Of the report, the tracker touches left shift, and only when it finds the matrix empty. -/
theorem report_track_release {r : Reporter} (hs : r.slots.Tidy) (t : ShiftTracker) :
    (t.track (.release p) r).2.report = r.report.without (if r.matrix.anyHeld then [] else [.leftShift]) := by
  cases hm : r.matrix.anyHeld with
  | true =>
    rw [ShiftTracker.track_release hm]
    exact (Report.without_nil _).symm
  | false =>
    have hclear : (KeyHost.setShift false r).report = r.report.without [.leftShift] := Reporter.report_unregister hs _
    have hidle : KeyHost.anyKeyHeld r = false := hm
    unfold ShiftTracker.track
    simp only [hidle, Bool.not_false, if_true, Bool.false_eq_true, if_false]
    split
    · exact hclear
    · exact hclear

theorem letGo_release (hs : kb.reporter.slots.Tidy) (hk : kb.remapper.hijacked.get? p = none) (c : Chord) :
    LetGo [(p, c)] kb (kb.processKey (.key c) (.release p)) := by
  have hkb := processKey_release_unrecorded hk c
  have hmatrix := Session.matrix_processKey kb (.key c) (.release p)
  have htidy : (kb.reporter.updateMatrix (.release p)).slots.Tidy := (Reporter.updateMatrix_slots ..).symm ▸ hs
  have hreport : (kb.reporter.updateMatrix (.release p)).report = kb.report :=
    Reporter.report_updateMatrix ..
  constructor
  case matrix =>
    rw [hmatrix]
    show kb.reporter.matrix.held.filter (· ≠ p) = _
    refine List.filter_congr fun q _ => ?_
    simp
  case layers =>
    rw [hkb]
    exact (Reporter.callsKeep_layers kb.reporter.layers).unregisterChord
      ((Reporter.callsKeep_layers _).track (Reporter.updateMatrix_layers ..))
  case hijacked => rw [hkb]
  case dances => rw [hkb]
  case shiftHeld =>
    have hbit : (kb.seen (.release p)).mods.has .leftShift = kb.report.leftShift := by
      rw [← hreport]
      rfl
    rw [shiftHeld_processKey, hbit]
    cases kb.report.leftShift <;> simp [KeyEvent.release, Bool.and_comm]
  case report =>
    have htrack := report_track_release (p := p) htidy kb.remapper.tracker
    rw [hmatrix, hkb]
    show (KeyHost.unregisterChord c _ : Reporter).report = _
    rw [Reporter.report_unregisterChord (Reporter.callsKeep_tidy.track htidy), htrack, hreport, Report.without_without]
    refine Report.without_congr (fun k => ?_) _
    simp [or_comm]

/-! ## Releases in a row -/

/-- A position that is down after releases was down before. -/
theorem LetGo.anyHeld (h : LetGo l kb kb') (hm : kb'.reporter.matrix.anyHeld = true) :
    kb.reporter.matrix.anyHeld = true := by
  rw [Matrix.anyHeld, h.matrix] at hm
  rw [Matrix.anyHeld]
  cases hheld : kb.reporter.matrix.held with
  | nil => rw [hheld] at hm; cases hm
  | cons q qs => rfl

/-- Left shift that is registered after releases was so before. -/
theorem LetGo.leftShift (h : LetGo l kb kb') (hb : kb.report.leftShift = false) : kb'.report.leftShift = false := by
  have hoff : kb.report.has .leftShift = false := hb
  show kb'.report.has .leftShift = false
  rw [h.report, Report.has_without, hoff, Bool.false_and]

theorem LetGo.trans (h : LetGo l kb kb') (h' : LetGo l' kb' kb'') : LetGo (l ++ l') kb kb'' := by
  -- nothing that the first releases cleared is set again by the later ones
  have hidle : kb'.reporter.matrix.anyHeld = false → kb''.reporter.matrix.anyHeld = false :=
    fun hm => Bool.eq_false_iff.2 fun hm' => Bool.false_ne_true (hm.symm.trans (h'.anyHeld hm'))
  constructor
  case matrix =>
    rw [h'.matrix, h.matrix, List.filter_filter]
    refine List.filter_congr fun q _ => ?_
    rw [← Bool.decide_and, decide_eq_decide, List.map_append, List.mem_append]
    tauto
  case layers => exact h'.layers.trans h.layers
  case hijacked => exact h'.hijacked.trans h.hijacked
  case dances => exact h'.dances.trans h.dances
  case shiftHeld =>
    rw [h'.shiftHeld, h.shiftHeld]
    cases hb : kb.report.leftShift with
    | true => simp
    | false =>
      rw [h.leftShift hb]
      cases hm : kb'.reporter.matrix.anyHeld with
      | true => simp
      | false => simp [hidle hm]
  case report =>
    rw [h'.report, h.report, Report.without_without]
    refine Report.without_congr (fun k => ?_) _
    simp only [List.flatMap_append, List.mem_append]
    cases hm : kb'.reporter.matrix.anyHeld with
    | true => simp [or_assoc]
    | false =>
      rw [hidle hm]
      tauto

/-- What a list of releases leaves behind. -/
theorem letGo_releases (hl : l ≠ []) (hs : kb.reporter.slots.Tidy)
    (hk : ∀ x ∈ l, kb.remapper.hijacked.get? x.1 = none) : LetGo l kb (kb.run (releases l)) := by
  induction l generalizing kb with
  | nil => exact absurd rfl hl
  | cons x l ih =>
    have hx := letGo_release hs (hk x (List.mem_cons_self ..)) x.2
    cases l with
    | nil => exact hx
    | cons y l =>
      refine hx.trans (ih (List.cons_ne_nil _ _) ?_ fun z hz => ?_)
      · exact Reporter.opsKeep_tidy.processKey (Reporter.opsKeep_tidy.updateMatrix hs)
      · rw [hx.hijacked]
        exact hk z (List.mem_cons_of_mem _ hz)

/-! ## Releases in any order -/

/-- The keyboards are in the same state. Only the reports that they have sent can differ. -/
structure SameState (kb kb' : Keyboard) : Prop where
  report : kb.report = kb'.report
  shiftHeld : kb.shiftHeld = kb'.shiftHeld
  matrix : kb.reporter.matrix.held = kb'.reporter.matrix.held
  layers : kb.reporter.layers = kb'.reporter.layers
  hijacked : kb.remapper.hijacked = kb'.remapper.hijacked
  dances : kb.remapper.dances = kb'.remapper.dances

/-- The positions and chords decide, and not their order. -/
theorem LetGo.sameState (h : LetGo l kb kb') (h' : LetGo l' kb kb'') (hp : l.Perm l') : SameState kb' kb'' := by
  have hmatrix : kb'.reporter.matrix.held = kb''.reporter.matrix.held := by
    rw [h.matrix, h'.matrix]
    refine List.filter_congr fun q _ => ?_
    rw [decide_eq_decide, not_iff_not]
    exact (hp.map Prod.fst).mem_iff
  have hany : kb'.reporter.matrix.anyHeld = kb''.reporter.matrix.anyHeld := by
    simp only [Matrix.anyHeld, hmatrix]
  constructor
  case report =>
    rw [h.report, h'.report, hany]
    refine Report.without_congr (fun k => ?_) _
    rw [List.mem_append, List.mem_append, (hp.flatMap_right _).mem_iff]
  case shiftHeld => rw [h.shiftHeld, h'.shiftHeld, hany]
  case matrix => exact hmatrix
  case layers => rw [h.layers, h'.layers]
  case hijacked => rw [h.hijacked, h'.hijacked]
  case dances => rw [h.dances, h'.dances]

/-- **The order of releases does not matter.** In every state that a keyboard can reach, releases at positions that are
not recorded as hijacked, each carrying any chord, lead to the same state in whichever order they come, and that state
is what `LetGo` says. The positions need not even differ. -/
theorem sameState_of_perm (profile : Profile) (capacity : Nat) (ops : List Op) :
    let kb := (Keyboard.new profile capacity).run ops
    ∀ {l l' : List (Position × Chord)}, (∀ x ∈ l, kb.remapper.hijacked.get? x.1 = none) → l.Perm l' →
      SameState (kb.run (releases l)) (kb.run (releases l')) ∧ (l ≠ [] → LetGo l kb (kb.run (releases l))) := by
  intro kb l l' hk hp
  have hs : kb.reporter.slots.Tidy := tidy_run profile capacity ops
  by_cases hl : l = []
  · subst hl
    rw [hp.nil_eq]
    exact ⟨⟨rfl, rfl, rfl, rfl, rfl, rfl⟩, fun h => absurd rfl h⟩
  · have hl' : l' ≠ [] := fun h => hl (List.perm_nil.1 (h ▸ hp))
    have hleft := letGo_releases hl hs hk
    have hright := letGo_releases hl' hs fun x hx => hk x (hp.mem_iff.2 hx)
    exact ⟨hleft.sameState hright hp, fun _ => hleft⟩

/-- Left shift is down, and two chords that share control. -/
def chordsUnderShift : List Op :=
  [.key (.key ⟨.leftShift, .empty⟩) (.press ⟨0, 0⟩), .key (.key ⟨.keyA, .ctrl⟩) (.press ⟨1, 0⟩),
    .key (.key ⟨.keyB, .ctrl⟩) (.press ⟨1, 1⟩)]

/-- Shift let go first or last: the reports on the way differ, and the keyboard ends in the same state. -/
theorem sameState_of_perm_chordsUnderShift :
    let kb := (Keyboard.new ⟨0, .linux, commaTable⟩ 4).run chordsUnderShift
    let l : List (Position × Chord) :=
      [(⟨0, 0⟩, ⟨.leftShift, .empty⟩), (⟨1, 0⟩, ⟨.keyA, .ctrl⟩), (⟨1, 1⟩, ⟨.keyB, .ctrl⟩)]
    (∀ x ∈ l, kb.remapper.hijacked.get? x.1 = none) ∧ l.Perm l.reverse ∧
      SameState (kb.run (releases l)) (kb.run (releases l.reverse)) ∧ LetGo l kb (kb.run (releases l)) ∧
      (kb.run (releases l)).reporter.attempted ≠ (kb.run (releases l.reverse)).reporter.attempted := by
  intro kb l
  have hk : ∀ x ∈ l, kb.remapper.hijacked.get? x.1 = none := by decide +kernel
  have hp : l.Perm l.reverse := (List.reverse_perm l).symm
  obtain ⟨hsame, hleft⟩ := sameState_of_perm ⟨0, .linux, commaTable⟩ 4 chordsUnderShift hk hp
  exact ⟨hk, hp, hsame, hleft (List.cons_ne_nil _ _), by decide +kernel⟩

end ShiftRemap.Keyboard
