import ShiftRemap.Proofs.Ownership

/-!
# No stuck keys

When every key is up, nothing is registered. In a run in which presses and releases alternate and no more
hijacked presses are down at a time than the remapper can remember, every registered key but left shift has
an owner (`Owned`), and an owner is a key that is down or a dance whose key is. Left shift is cleared by the
event that leaves the matrix idle (`shift_cleared`): the tracker clears it first, and nothing else that a
release does can set it again.
-/

namespace ShiftRemap

open Keyboard Remapper

/-! ## An idle matrix -/

section Idle

variable {profile : Profile} {action : Action} {p : Position} {r : Remapper} {h : Reporter} {j : KeyCode}

theorem Dance.registered_release {d : Dance} (hs : h.slots.Tidy) (hj : (d.release h).2.2.registered j) :
    h.registered j := by
  unfold Dance.release at hj
  dsimp only at hj
  split at hj
  · exact (Dance.registered_undo hs hj).1
  · exact hj

/-- What is left to do at a release registers nothing. -/
theorem registered_dispatch_release (hs : h.slots.Tidy)
    (hj : (r.dispatch profile action (.release p) h).host.registered j) : h.registered j := by
  unfold Remapper.dispatch at hj
  split at hj
  · exact hj
  · dsimp only [Remapper.dance, KeyEvent.release] at hj
    split at hj
    · exact hj
    · exact Dance.registered_release hs hj
    · split at hj
      · exact hj
      · exact Reporter.registered_note.1 hj
    · exact hj
  · exact hj
  · exact hj

theorem registered_applyAction_release (hs : h.slots.Tidy)
    (hj : (applyAction action (.release p) h).registered j) : h.registered j := by
  unfold applyAction at hj
  split at hj
  · exact ((Reporter.registered_unregisterChord hs).1 hj).1
  · exact hj

theorem filtered_release_idle (profile : Profile) (action : Action) (p : Position) (r : Remapper)
    (hs : h.slots.Tidy) (hi : KeyHost.anyKeyHeld h = false) :
    let f := r.filtered profile action (.release p) h
    f.2.1.tracker.shiftHeld = false ∧ ¬ f.2.2.registered .leftShift := by
  rw [filtered_release]
  have hheld : (r.tracker.track (.release p) h).1.shiftHeld = false := by rw [ShiftTracker.track_idle hi]
  have hclear := ShiftTracker.not_registered_track (t := r.tracker) (e := .release p) hi
  have hs := Reporter.callsKeep_tidy.track (t := r.tracker) (e := .release p) hs
  cases hk : r.hijacked.get? p with
  | none =>
    rw [filter_release_left rfl hk]
    exact ⟨hheld, hclear⟩
  | some k =>
    cases hp : profile.pairs.get? k with
    | none =>
      rw [filter_release_unpaired rfl hk hp]
      exact ⟨hheld, hclear⟩
    | some pair =>
      rw [filter_release rfl hk hp]
      refine ⟨hheld, fun hj => ?_⟩
      -- the tracked flag is off by now, so putting shift back clears it
      rcases ShiftFilter.registered_release hs hj with hj | hj
      · exact hclear hj.1
      · rw [hheld] at hj; cases hj.1

/-- The release that leaves the matrix idle leaves left shift clear, whatever its action. -/
theorem shift_cleared {kb : Keyboard} (hs : kb.reporter.slots.Tidy)
    (hi : (kb.reporter.updateMatrix (.release p)).matrix.anyHeld = false) :
    (kb.processKey action (.release p)).shiftHeld = false ∧
      ¬ (kb.processKey action (.release p)).reporter.registered .leftShift := by
  have hs : (kb.reporter.updateMatrix (.release p)).slots.Tidy := by rwa [Reporter.updateMatrix_slots]
  have hidle := filtered_release_idle kb.profile action p kb.remapper hs hi
  have htidy : (kb.remapper.filtered kb.profile action (.release p)
    (kb.reporter.updateMatrix (.release p))).2.2.slots.Tidy := Reporter.callsKeep_tidy.filtered hs
  obtain ⟨taken, r, h, hf⟩ : ∃ b r h, kb.remapper.filtered kb.profile action (.release p)
    (kb.reporter.updateMatrix (.release p)) = (b, r, h) := ⟨_, _, _, rfl⟩
  rw [hf] at hidle htidy
  obtain ⟨hheld, hclear⟩ := hidle
  cases taken with
  | true =>
    rw [(processKey_of_taken hf).2]
    exact ⟨hheld, hclear⟩
  | false =>
    rw [(processKey_of_left hf).2]
    refine ⟨(congrArg ShiftTracker.shiftHeld (tracker_dispatch ..)).trans hheld, fun hj => ?_⟩
    dsimp only at hj
    split at hj
    · exact hclear (registered_dispatch_release htidy
        (registered_applyAction_release (Reporter.callsKeep_tidy.dispatch htidy) hj))
    · exact hclear (registered_dispatch_release htidy hj)

end Idle

/-! ## Owners through a key event -/

namespace Owned

variable {down : List Stroke} {kb : Keyboard} {action : Action} {p : Position}

theorem updateMatrix {table : PairTable} {r : Remapper} {h : Reporter} (ho : Owned table down r h)
    (e : KeyEvent) : Owned table down r (h.updateMatrix e) :=
  ho.mono (by rw [Reporter.updateMatrix_slots]; exact ho.tidy) fun _ hc => .inl (Reporter.registered_updateMatrix.1 hc)

/-- A press adds its stroke. -/
theorem press (ho : Owned kb.profile.pairs down kb.remapper kb.reporter) (hp : ∀ k ∈ down, k.position ≠ p)
    (hroom : kb.takes action (.press p) = true →
      (down.filter (·.hijacked)).length < HijackedKeys.capacity) :
    Owned kb.profile.pairs (⟨p, action, kb.takes action (.press p)⟩ :: down)
      (kb.processKey action (.press p)).remapper (kb.processKey action (.press p)).reporter := by
  have ha := (ho.updateMatrix (.press p)).prepare (.press p)
  obtain ⟨r, h, hprep⟩ : ∃ r h, kb.remapper.prepare (.press p) (kb.reporter.updateMatrix (.press p)) = (r, h) :=
    ⟨_, _, rfl⟩
  rw [hprep] at ha
  have ht := ha.track (.press p)
  cases hpair : triggered? kb.profile action h with
  | some pair =>
    have hf := filter_press (r := r) (e := .press p) rfl hpair
    obtain ⟨htake, he⟩ := processKey_of_taken (by rw [filtered, hprep]; exact hf)
    rw [he, htake]
    exact ht.hijack hp (get?_of_triggered? hpair) (hroom htake) _
  | none =>
    have hf := filter_press_left (r := r) (e := .press p) rfl hpair
    obtain ⟨htake, he⟩ := processKey_of_left (by rw [filtered, hprep]; exact hf)
    rw [he, htake]
    have hc := ht.cons hp action
    cases action with
    | none => exact hc
    | key c => exact hc.register (List.mem_cons_self ..) rfl rfl
    | shortcut s =>
      refine hc.mono (Reporter.callsKeep_tidy.tap (Reporter.callsKeep_tidy.note hc.tidy)) fun j hj => .inl ?_
      exact Reporter.registered_note.1 (Reporter.registered_tap (Reporter.callsKeep_tidy.note hc.tidy) hj)
    | layerTap n c => exact hc.dancePress (List.mem_cons_self ..) rfl rfl

/-- The release of a key that was not hijacked lets go of what it holds. -/
theorem letGo {profile : Profile} {r : Remapper} {h : Reporter} {k : Stroke} (ho : Owned profile.pairs down r h)
    (hk : k ∈ down) (hj : k.hijacked = false) :
    let step := r.dispatch profile k.action (.release k.position) h
    Owned profile.pairs (down.filter (·.position != k.position)) step.remapper
      (if step.passes then applyAction k.action (.release k.position) step.host else step.host) := by
  have hidle : (∀ chord, k.action ≠ .key chord) → ∀ c ∈ k.keys profile.pairs, h.registered c → c = .leftShift := by
    intro hne c hc
    obtain ⟨chord, ha, _⟩ := (Stroke.mem_keys_left hj).1 hc
    exact absurd ha (hne chord)
  cases ha : k.action with
  | none => exact ho.dropLeft hk hj (hidle (by simp [ha])) (ho.not_dancing hk (.inr (by simp [ha])))
  | shortcut s => exact ho.dropLeft hk hj (hidle (by simp [ha])) (ho.not_dancing hk (.inr (by simp [ha])))
  | key chord =>
    have hs := ho.tidy
    have hrel := ho.mono (Reporter.callsKeep_tidy.unregisterChord (c := chord) hs)
      fun c hc => .inl ((Reporter.registered_unregisterChord hs).1 hc).1
    refine hrel.dropLeft hk hj (fun c hc hr => ?_) (ho.not_dancing hk (.inr (by simp [ha])))
    obtain ⟨chord', he, hc⟩ := (Stroke.mem_keys_left hj).1 hc
    rw [ha] at he
    cases he
    exact absurd hc ((Reporter.registered_unregisterChord hs).1 hr).2
  | layerTap n chord =>
    obtain ⟨hd, _, hdance⟩ := ho.danceRelease n chord k.position
    refine hd.dropLeft hk hj (fun c hc => ?_) hdance
    obtain ⟨chord', he, _⟩ := (Stroke.mem_keys_left hj).1 hc
    rw [ha] at he
    cases he

theorem processKey_release {pair : Pair} {k : Stroke} (ho : Owned kb.profile.pairs down kb.remapper kb.reporter)
    (hk : k ∈ down) (hj : k.hijacked = true) (hpair : kb.profile.pairs.get? (triggerOf k.action) = some pair) :
    kb.processKey k.action (.release k.position) =
      let t := kb.remapper.tracker.track (.release k.position) (kb.reporter.updateMatrix (.release k.position))
      { kb with
        remapper := { kb.remapper with tracker := t.1, hijacked := kb.remapper.hijacked.erase k.position }
        reporter := ShiftFilter.release pair t.1.shiftHeld t.2 } := by
  have hf := (filtered_release kb.profile k.action k.position kb.remapper
    (kb.reporter.updateMatrix (.release k.position))).trans (filter_release rfl (ho.get?_eq_some hk hj) hpair)
  exact (processKey_of_taken hf).2

theorem processKey_release_left {k : Stroke} (ho : Owned kb.profile.pairs down kb.remapper kb.reporter)
    (hk : k ∈ down) (hj : k.hijacked = false) :
    kb.processKey k.action (.release k.position) =
      let t := kb.remapper.tracker.track (.release k.position) (kb.reporter.updateMatrix (.release k.position))
      let step := { kb.remapper with tracker := t.1 }.dispatch kb.profile k.action (.release k.position) t.2
      { kb with
        remapper := step.remapper
        reporter := if step.passes then applyAction k.action (.release k.position) step.host else step.host } := by
  have hnone := ho.get?_eq_none (p := k.position) fun x hx hxj he => by
    rw [ho.unique hx hk he, hj] at hxj
    cases hxj
  have hf := (filtered_release kb.profile k.action k.position kb.remapper
    (kb.reporter.updateMatrix (.release k.position))).trans (filter_release_left rfl hnone)
  exact (processKey_of_left hf).2

/-- A release ends its stroke. -/
theorem release {k : Stroke} (ho : Owned kb.profile.pairs down kb.remapper kb.reporter) (hk : k ∈ down) :
    Owned kb.profile.pairs (down.filter (·.position != k.position))
      (kb.processKey k.action (.release k.position)).remapper
      (kb.processKey k.action (.release k.position)).reporter := by
  have ht := (ho.updateMatrix (.release k.position)).track (.release k.position)
  cases hj : k.hijacked with
  | true =>
    obtain ⟨pair, hpair⟩ := ho.paired k hk hj
    rw [ho.processKey_release hk hj hpair]
    exact ht.unhijack hk hj hpair _
  | false =>
    rw [ho.processKey_release_left hk hj]
    exact ht.letGo hk hj

end Owned

/-! ## Runs -/

/-- Nothing is held: no key is reported, shift is not tracked, no press is remembered, and a dance that is in
progress holds nothing because it is not resolved yet. -/
structure Keyboard.AtRest (kb : Keyboard) : Prop where
  report : kb.report = .idle
  shiftHeld : kb.shiftHeld = false
  hijacked : kb.remapper.hijacked.entries = []
  dances : ∀ d ∈ kb.remapper.dances, d.isFinished = false

namespace Session

variable {s : Session} {op : Op}

/-- Presses and releases alternate, and the remapper has room for every hijacked press that is down. -/
def Sparing (s : Session) (op : Op) : Prop :=
  s.Alternates op ∧ ((s.apply op).down.filter (·.hijacked)).length ≤ HijackedKeys.capacity

instance (s : Session) (op : Op) : Decidable (s.Sparing op) := inferInstanceAs (Decidable (_ ∧ _))

/-- Whatever is held is accounted for by what is down. -/
structure Accounted (s : Session) : Prop where
  owned : Owned s.keyboard.profile.pairs s.down s.keyboard.remapper s.keyboard.reporter
  covered : s.Covered
  cleared : s.down = [] → s.keyboard.shiftHeld = false ∧ ¬ s.keyboard.reporter.registered .leftShift

namespace Accounted

theorem new (profile : Profile) (capacity : Nat) : (Session.new profile capacity).Accounted where
  owned := Owned.new
  covered p hp := absurd hp List.not_mem_nil
  cleared _ := by
    refine ⟨rfl, fun hc => ?_⟩
    rw [show KeyCode.leftShift = Modifier.leftShift.key from rfl, Reporter.registered_key] at hc
    exact absurd hc (by rw [show (Session.new profile capacity).keyboard.reporter.mods = .empty from rfl,
      Modifiers.has_empty]; decide)

/-- A dance that holds a key is pressed, so it is over once every key is up. -/
theorem not_finished (h : s.Accounted) (hup : s.down = []) {d : Dance} (hd : d ∈ s.keyboard.remapper.dances) :
    d.isFinished = false ∧ d.pressed = false := by
  have hpr : d.pressed = false := by
    rw [Bool.eq_false_iff]
    intro hp
    obtain ⟨k, hk, _⟩ := h.owned.danced d hd hp
    rw [hup] at hk; cases hk
  refine ⟨?_, hpr⟩
  rw [Bool.eq_false_iff]
  intro hf
  rw [h.owned.pressed d hd hf] at hpr; cases hpr

theorem not_registered (h : s.Accounted) (hup : s.down = []) (c : KeyCode) : ¬ s.keyboard.reporter.registered c := by
  intro hc
  rcases h.owned.owner c hc with rfl | ⟨k, hk, _⟩ | ⟨d, hd, hcd⟩
  · exact (h.cleared hup).2 hc
  · rw [hup] at hk; cases hk
  · have hf := Dance.isFinished_of_mem_keys hcd
    rw [(h.not_finished hup hd).1] at hf; cases hf

theorem atRest (h : s.Accounted) (hup : s.down = []) : s.keyboard.AtRest where
  report := Reporter.report_eq_idle h.owned.tidy (h.not_registered hup)
  shiftHeld := (h.cleared hup).1
  hijacked := by
    have hp := h.owned.remembered
    rw [hup] at hp
    exact hp.eq_nil
  dances _ hd := (h.not_finished hup hd).1

/-- Once every key is up, the dances in progress only wait to be dropped. -/
theorem dances_finishDance (h : s.Accounted) (hup : s.down = []) : s.keyboard.finishDance.remapper.dances = [] := by
  have hset : s.keyboard.finishDance.remapper.dances =
      (Dance.settle (!·.isFinished) s.keyboard.remapper.dances s.keyboard.reporter).1 := rfl
  rw [hset, Dance.settle_fst, List.filterMap_eq_nil_iff]
  intro d hd
  obtain ⟨hf, hp⟩ := h.not_finished hup hd
  simp only [Dance.resolved?, hf, hp, Bool.not_false, if_true, Bool.false_eq_true, if_false]

theorem finishDance (h : s.Accounted) : (s.apply .finishDance).Accounted where
  owned := h.owned.settle _
  covered := h.covered.apply
  cleared hup := by
    refine ⟨(h.cleared hup).1, fun hc => ?_⟩
    rcases Dance.registered_settle h.owned.tidy hc with hc | ⟨d, hd, _⟩
    · exact (h.cleared hup).2 hc
    · exact absurd hd (List.eq_nil_iff_forall_not_mem.1 (h.dances_finishDance hup) d)

/-- Every operation of a sparing run keeps what is held accounted for. -/
theorem apply (h : s.Accounted) (hok : s.Sparing op) : (s.apply op).Accounted := by
  rcases op with ⟨action, p, _ | _⟩ | n | _ | n
  · obtain ⟨⟨k, hk, rfl, rfl⟩, _⟩ := hok
    refine ⟨h.owned.release hk, h.covered.apply, fun hup => ?_⟩
    have hidle : (s.keyboard.reporter.updateMatrix (.release k.position)).matrix.anyHeld = false := by
      rw [← matrix_processKey s.keyboard k.action (.release k.position)]
      rw [Matrix.anyHeld, Bool.not_eq_false', List.isEmpty_iff, List.eq_nil_iff_forall_not_mem]
      intro q hq
      have hcovered : (s.apply (.key k.action ⟨k.position, false⟩)).Covered := h.covered.apply
      obtain ⟨x, hx, _⟩ := hcovered q hq
      rw [hup] at hx; cases hx
    exact shift_cleared h.owned.tidy hidle
  · refine ⟨h.owned.press hok.1 fun ht => ?_, h.covered.apply, fun hup => absurd hup (List.cons_ne_nil _ _)⟩
    have hlen := hok.2
    simp only [Session.apply, ht, List.filter_cons, if_true, List.length_cons] at hlen
    exact hlen
  · obtain ⟨hm, hs, hmods⟩ := Reporter.setLayer_fields n s.keyboard.reporter
    have hr : ∀ c, (s.keyboard.reporter.setLayer n).registered c ↔ s.keyboard.reporter.registered c :=
      fun c => Reporter.registered_congr hmods hs
    refine ⟨h.owned.mono (hs ▸ h.owned.tidy) fun c hc => .inl ((hr c).1 hc), h.covered.apply, fun hup => ?_⟩
    exact ⟨(h.cleared hup).1, fun hc => (h.cleared hup).2 ((hr _).1 hc)⟩
  · exact h.finishDance
  · exact ⟨{ h.owned with }, h.covered.apply, h.cleared⟩

end Accounted

/-- **No stuck keys.** However the keys of a run overlap and whatever layers change meanwhile, nothing is
held once every key is up, and the end of the tapping term leaves no dance. -/
theorem atRest_of_up {profile : Profile} {capacity : Nat} {ops : List Op}
    (h : (Session.new profile capacity).Follows Sparing ops)
    (hup : ((Session.new profile capacity).run ops).down = []) :
    let kb := (Keyboard.new profile capacity).run ops
    kb.AtRest ∧ kb.finishDance.AtRest ∧ kb.finishDance.remapper.dances = [] := by
  have ha := h.keeps Accounted.apply (Accounted.new profile capacity)
  have hrun : ((Session.new profile capacity).run ops).keyboard = (Keyboard.new profile capacity).run ops :=
    keyboard_run _ _
  rw [← hrun]
  exact ⟨ha.atRest hup, ha.finishDance.atRest hup, ha.dances_finishDance hup⟩

/-- Shift, a trigger, a layer tap, a shortcut and two keys that type the same overlap, and the layer changes. -/
def tangle : List Op :=
  [.key (.key ⟨.leftShift, .empty⟩) ⟨⟨0, 0⟩, true⟩, .key (.key ⟨.comma, .empty⟩) ⟨⟨0, 1⟩, true⟩,
    .key (.layerTap 1 (.shifted .keyA)) ⟨⟨0, 2⟩, true⟩, .key (.key ⟨.leftShift, .empty⟩) ⟨⟨0, 0⟩, false⟩,
    .setLayer 2, .key (.key ⟨.semicolon, .ctrl⟩) ⟨⟨0, 3⟩, true⟩, .key (.shortcut .undo) ⟨⟨0, 4⟩, true⟩,
    .finishDance, .key (.key ⟨.comma, .empty⟩) ⟨⟨0, 1⟩, false⟩,
    .key (.layerTap 1 (.shifted .keyA)) ⟨⟨0, 2⟩, false⟩, .receive 1,
    .key (.layerTap 1 (.shifted .keyA)) ⟨⟨0, 2⟩, true⟩, .key (.shortcut .undo) ⟨⟨0, 4⟩, false⟩,
    .key (.key ⟨.semicolon, .ctrl⟩) ⟨⟨0, 3⟩, false⟩, .key (.layerTap 1 (.shifted .keyA)) ⟨⟨0, 2⟩, false⟩]

theorem atRest_tangle :
    let start := Session.new { pairs := ⟨[⟨⟨.comma, .empty⟩, ⟨.semicolon, .empty⟩⟩]⟩ } 2
    start.Follows Sparing tangle ∧ (start.run tangle).down = [] ∧ (start.keyboard.run tangle).AtRest := by
  have hf : (Session.new { pairs := ⟨[⟨⟨.comma, .empty⟩, ⟨.semicolon, .empty⟩⟩]⟩ } 2).Follows Sparing tangle := by
    decide +kernel
  have hup : ((Session.new { pairs := ⟨[⟨⟨.comma, .empty⟩, ⟨.semicolon, .empty⟩⟩]⟩ } 2).run tangle).down = [] := by
    decide +kernel
  exact ⟨hf, hup, (atRest_of_up hf hup).1⟩

end Session

end ShiftRemap
