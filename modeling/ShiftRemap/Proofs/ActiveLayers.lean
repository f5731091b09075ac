import Mathlib.Data.List.Induction
import ShiftRemap.Proofs.DanceTable
import ShiftRemap.Proofs.RunInvariant

/-!
# Active layers

A layer is switched on by a dance that turns out to be a hold of it, and off by the release of such a dance
(`isActive_apply`); apart from that only `setLayer` touches the layers. A dance that a press interrupts is no
hold, so no key event switches a layer on, and the layers that are on are those that were set last or that are
held (`layers_held_or_set`).

Holds do not count: the release of one hold switches its layer off, also under the other holds of that layer.
-/

namespace ShiftRemap

/-! ## Switching layers -/

theorem Layers.isActive_of_le {l : Layers} {n : UInt8} (h : layerCount ≤ n.toNat) : l.isActive n = false := by
  rw [isActive, Vector.getElem?_eq_none h]
  rfl

theorem Layers.highest_eq_zero {l : Layers} (h : ∀ n, l.isActive n = false) : l.highest = 0 := by
  have hnone : ((List.range layerCount).map UInt8.ofNat).reverse.find? l.isActive = Option.none := by
    rw [List.find?_eq_none]
    intro n _
    rw [h n]
    exact Bool.false_ne_true
  rw [highest, hnone]
  rfl

namespace Reporter

variable {r : Reporter} {m n : UInt8}

theorem isActive_activate :
    (r.putLayer n true).layers.isActive m = true ↔
      r.layers.isActive m = true ∨ m = n ∧ n.toNat < layerCount := by
  unfold putLayer
  cases hp : r.layers.put? n true with
  | none =>
    have hn : ¬ n.toNat < layerCount := by
      intro hlt
      simp [Layers.put?, hlt] at hp
    simp [hear, hn]
  | some l =>
    have hn : n.toNat < layerCount := by
      by_contra hlt
      simp [Layers.put?, hlt] at hp
    simp only [Layers.isActive_put? hp]
    split <;> simp_all

theorem isActive_deactivate :
    (r.putLayer n false).layers.isActive m = true ↔ r.layers.isActive m = true ∧ m ≠ n := by
  unfold putLayer
  cases hp : r.layers.put? n false with
  | none =>
    have hn : layerCount ≤ n.toNat := by
      by_contra hlt
      simp [Layers.put?, Nat.not_le.1 hlt] at hp
    refine ⟨fun ha => ⟨ha, ?_⟩, And.left⟩
    rintro rfl
    rw [hear, Layers.isActive_of_le hn] at ha
    cases ha
  | some l =>
    simp only [Layers.isActive_put? hp]
    split <;> simp_all

/-- A layer that was set is the only active one; a layer that the keyboard does not have changes nothing. -/
theorem isActive_setLayer :
    (r.setLayer n).layers.isActive m = true ↔
      if n.toNat < layerCount then m = n else r.layers.isActive m = true := by
  unfold setLayer Layers.only?
  cases hp : Layers.none.put? n true with
  | none =>
    have hn : ¬ n.toNat < layerCount := by
      intro hlt
      simp [Layers.put?, hlt] at hp
    rw [if_neg hn]
    rfl
  | some l =>
    have hn : n.toNat < layerCount := by
      by_contra hlt
      simp [Layers.put?, hlt] at hp
    simp [Layers.isActive_put? hp, Layers.isActive_none, hn]

end Reporter

namespace Dance

/-- The dance turned out to be a hold of the layer. -/
def holds (n : UInt8) (d : Dance) : Bool := d.outcome? = some .singleHold && d.layer = n

variable {d d' : Dance} {h : Reporter} {n : UInt8}

theorem holds_iff : d.holds n = true ↔ d.outcome? = some .singleHold ∧ d.layer = n := by
  simp [holds]

theorem isFinished_of_holds (hd : d.holds n = true) : d.isFinished = true := by
  simp [isFinished, (holds_iff.1 hd).1]

/-- A dance that was resolved is a hold only if nothing interrupted it and its key is down. -/
theorem holds_classified (hd : d.classified.holds n = true) : d.interrupted = false ∧ d.pressed = true :=
  (Outcome.classify_eq_singleHold_iff.1 (Option.some.inj (holds_iff.1 hd).1)).2

/-- Undoing a hold switches its layer off. -/
theorem isActive_undo :
    (d.undo h).layers.isActive n = true ↔ h.layers.isActive n = true ∧ d.holds n = false := by
  by_cases ho : d.outcome? = some .singleHold
  · have hundo : d.undo h = h.putLayer d.layer false := by simp only [undo, ho]; rfl
    have hother : d.holds n = false ↔ n ≠ d.layer := by
      simp only [holds, ho, decide_true, Bool.true_and, decide_eq_false_iff_not]
      exact ne_comm
    rw [hundo, Reporter.isActive_deactivate, hother]
  · rw [(Reporter.callsKeep_layers h.layers).undo ho rfl]
    simp [holds, ho]

/-- Resolving a dance that is pending switches the layer on that it turns out to hold. -/
theorem isActive_finish :
    (d.finish h).2.2.layers.isActive n = true ↔
      h.layers.isActive n = true ∨ d.isFinished = false ∧ d.classified.holds n = true ∧ n.toNat < layerCount := by
  cases hf : d.isFinished with
  | true =>
    rw [finish_of_finished hf]
    simp
  | false =>
    have hkeep := Reporter.callsKeep_layers h.layers
    by_cases ho : Outcome.classify d.taps d.interrupted d.pressed = .singleHold
    · have hp : d.pressed = true := (Outcome.classify_eq_singleHold_iff.1 ho).2.2
      have hbegun : d.begun h = (KeyHost.note (.danceFinished d.position .singleHold) h).putLayer d.layer true := by
        rw [begun, ho]
        rfl
      rw [finish_of_pressed hf hp, hbegun, Reporter.isActive_activate, hkeep.note rfl]
      simp only [holds, classified, ho, decide_true, Bool.true_and, decide_eq_true_eq, true_and]
      refine or_congr_right ⟨?_, ?_⟩
      · rintro ⟨rfl, hlt⟩
        exact ⟨rfl, hlt⟩
      · rintro ⟨rfl, hlt⟩
        exact ⟨rfl, hlt⟩
    · have hbegun : (d.begun h).layers = h.layers := hkeep.begin ho (hkeep.note rfl)
      have hundo : (d.classified.undo (d.begun h)).layers = h.layers :=
        hkeep.undo (fun he => ho (Option.some.inj he)) hbegun
      have hno : d.classified.holds n = false := by simp [holds, classified, ho]
      cases hp : d.pressed with
      | true =>
        rw [finish_of_pressed hf hp, hbegun, hno]
        simp
      | false =>
        rw [finish_of_released hf hp, hundo, hno]
        simp

theorem isActive_settle {due : Dance → Bool} {ds : List Dance} :
    (settle due ds h).2.layers.isActive n = true ↔
      h.layers.isActive n = true ∨
        ∃ d ∈ ds, due d = true ∧ d.isFinished = false ∧ d.classified.holds n = true ∧ n.toNat < layerCount := by
  induction ds generalizing h with
  | nil => simp [settle]
  | cons d ds ih =>
    unfold settle
    by_cases hd : due d = true
    · rw [if_pos hd]
      dsimp only
      rw [ih, isActive_finish, or_assoc]
      simp [hd]
    · rw [if_neg hd]
      dsimp only
      rw [ih]
      simp [hd]

end Dance

/-! ## The holds of a layer -/

namespace Remapper

open Dance

/-- The dances in progress that turned out to be holds of the layer. -/
def holders (n : UInt8) (r : Remapper) : List Dance := r.dances.filter (·.holds n)

variable {σ : Type} [KeyHost σ] {r : Remapper} {h : σ} {d : Dance} {n : UInt8} {p : Position}

theorem mem_holders : d ∈ r.holders n ↔ d ∈ r.dances ∧ d.holds n = true := List.mem_filter

theorem holders_eq_nil (hr : r.dances = []) : r.holders n = [] := by rw [holders, hr]; rfl

/-- A dance that a press interrupts is no hold. -/
theorem mem_interruptDances_of_holds (hd : d.holds n = true) :
    d ∈ (r.interruptDances p h).1.dances ↔ d ∈ r.dances := by
  rw [dances_interruptDances, List.mem_filterMap]
  constructor
  · rintro ⟨x, hx, hxd⟩
    unfold interruptedBy? at hxd
    split at hxd
    · rename_i hdue
      have hf : x.interrupt.isFinished = false := (isDue_iff.1 hdue).2
      unfold resolved? at hxd
      rw [hf, if_neg Bool.false_ne_true] at hxd
      split at hxd
      · cases hxd
        cases (holds_classified hd).1
      · cases hxd
    · cases hxd
      exact hx
  · intro hmem
    refine ⟨d, hmem, if_neg ?_⟩
    rw [isDue_iff, isFinished_of_holds hd]
    simp

/-- Taps and new dances leave the finished dances alone. -/
theorem mem_dance_press_of_finished (ho : Orderly r.dances) (hd : d.isFinished = true) (m : UInt8) (c : Chord) :
    d ∈ (r.dance m c (.press p) h).1.dances ↔ d ∈ r.dances := by
  cases hf : r.dances.find? (·.position == p) with
  | none =>
    rw [dance_of_none_press hf]
    split
    · rw [List.mem_append, List.mem_singleton, or_iff_left]
      rintro rfl
      cases hd
    · rfl
  | some x =>
    obtain ⟨hx, rfl⟩ := mem_of_find? hf
    rw [dance_of_some_press hf, List.mem_map]
    constructor
    · rintro ⟨y, hy, hyd⟩
      by_cases he : y.position = x.position
      · rw [if_pos he] at hyd
        split at hyd
        · exact hyd ▸ hx
        · rename_i hpending
          exact absurd (hyd ▸ hd : x.tap.isFinished = true) hpending
      · rw [if_neg he] at hyd
        exact hyd ▸ hy
    · intro hmem
      refine ⟨d, hmem, ?_⟩
      split
      · rename_i he
        obtain rfl := ho.unique hmem hx he
        exact if_pos hd
      · rfl

/-- The release of a resolved dance ends this hold only. -/
theorem mem_holders_of_finished_release {x : Dance} (ho : Orderly r.dances)
    (hf : r.dances.find? (·.position == p) = some x) (hfin : x.isFinished = true) (m : UInt8) (c : Chord) :
    d ∈ (r.dance m c (.release p) h).1.holders n ↔ d ∈ r.holders n ∧ d ≠ x := by
  obtain ⟨hx, rfl⟩ := mem_of_find? hf
  rw [dance_of_finished_release hf hfin, mem_holders, mem_holders, List.mem_filter, bne_iff_ne]
  constructor
  · rintro ⟨⟨hmem, hne⟩, hn⟩
    exact ⟨⟨hmem, hn⟩, fun he => hne (congrArg _ he)⟩
  · rintro ⟨⟨hmem, hn⟩, hne⟩
    exact ⟨⟨hmem, fun he => hne (ho.unique hmem hx he)⟩, hn⟩

/-- The release of a pending dance ends no hold. -/
theorem mem_holders_of_pending_release {x : Dance} (ho : Orderly r.dances)
    (hf : r.dances.find? (·.position == p) = some x) (hfin : x.isFinished = false) (m : UInt8) (c : Chord) :
    d ∈ (r.dance m c (.release p) h).1.holders n ↔ d ∈ r.holders n := by
  obtain ⟨hx, rfl⟩ := mem_of_find? hf
  rw [dance_of_pending_release hf hfin, mem_holders, mem_holders, and_congr_left_iff, List.mem_map]
  intro hn
  have hd := isFinished_of_holds hn
  constructor
  · rintro ⟨y, hy, rfl⟩
    by_cases he : y.position = x.position
    · rw [if_pos he] at hd
      exact absurd (hfin.symm.trans hd) Bool.false_ne_true
    · rw [if_neg he]
      exact hy
  · intro hmem
    refine ⟨d, hmem, if_neg fun he => ?_⟩
    rw [ho.unique hmem hx he, hfin] at hd
    cases hd

/-- The end of a tapping term keeps the holds and may add one. -/
theorem mem_finishDance_of_holds (hd : d.holds n = true) :
    d ∈ (r.finishDance h).1.dances ↔ d ∈ r.dances ∨ ∃ x ∈ r.dances, x.isFinished = false ∧ x.classified = d := by
  rw [dances_finishDance, List.mem_filterMap]
  constructor
  · rintro ⟨x, hx, hxd⟩
    cases hf : x.isFinished with
    | true =>
      rw [resolved?_of_isFinished hf] at hxd
      cases hxd
      exact .inl hx
    | false =>
      unfold resolved? at hxd
      rw [hf, if_neg Bool.false_ne_true] at hxd
      split at hxd
      · cases hxd
        exact .inr ⟨x, hx, hf, rfl⟩
      · cases hxd
  · rintro (hmem | ⟨x, hx, hf, rfl⟩)
    · exact ⟨d, hmem, resolved?_of_isFinished (isFinished_of_holds hd)⟩
    · have hp : x.pressed = true := (holds_classified hd).2
      refine ⟨x, hx, ?_⟩
      rw [resolved?, hf, if_neg Bool.false_ne_true, if_pos hp]

end Remapper

namespace Keyboard

open Dance Remapper

variable {kb : Keyboard} {action : Action} {p : Position} {d : Dance} {n : UInt8}

/-- The stages before the action switch no layer. -/
theorem layers_filtered (kb : Keyboard) (action : Action) (e : KeyEvent) :
    (kb.remapper.filtered kb.profile action e (kb.reporter.updateMatrix e)).2.2.layers = kb.reporter.layers := by
  have hkeep := Reporter.callsKeep_layers kb.reporter.layers
  exact hkeep.filter (hkeep.prepare (Reporter.updateMatrix_layers ..))

/-- A press switches no layer. -/
theorem layers_press (kb : Keyboard) (action : Action) (p : Position) :
    (kb.processKey action (.press p)).reporter.layers = kb.reporter.layers := by
  have hkeep := Reporter.callsKeep_layers kb.reporter.layers
  have hf := layers_filtered kb action (.press p)
  obtain ⟨taken, r, h, he⟩ : ∃ b r h, kb.remapper.filtered kb.profile action (.press p)
    (kb.reporter.updateMatrix (.press p)) = (b, r, h) := ⟨_, _, _, rfl⟩
  rw [he] at hf
  cases taken with
  | true =>
    rw [(processKey_of_taken he).2]
    exact hf
  | false =>
    rw [(processKey_of_left he).2]
    cases action with
    | none => exact hf
    | key c => exact hkeep.registerChord hf
    | shortcut s => exact hkeep.tap (hkeep.note hf)
    | layerTap m c =>
      show (r.dance m c (.press p) h).2.layers = kb.reporter.layers
      cases hfind : r.dances.find? (·.position == p) with
      | none =>
        rw [dance_of_none_press hfind]
        split <;> exact hf
      | some x =>
        rw [dance_of_some_press hfind]
        exact hf

/-- Nor does it begin or end a hold. -/
theorem mem_holders_press (ho : Orderly kb.remapper.dances) :
    d ∈ (kb.processKey action (.press p)).remapper.holders n ↔ d ∈ kb.remapper.holders n := by
  rw [mem_holders, mem_holders, and_congr_left_iff]
  intro hd
  have hprep : d ∈ (kb.remapper.prepare (.press p) (kb.reporter.updateMatrix (.press p))).1.dances ↔
      d ∈ kb.remapper.dances := mem_interruptDances_of_holds hd
  have hprocess := dances_process kb.profile action (.press p) kb.remapper (kb.reporter.updateMatrix (.press p))
  show d ∈ (kb.remapper.process kb.profile action (.press p) (kb.reporter.updateMatrix (.press p))).remapper.dances ↔ _
  rcases hprocess with hds | ⟨m, c, r', h', hr', hds⟩
  · rw [hds, hprep]
  · have ho' : Orderly r'.dances := hr' ▸ orderly_prepare ho _ _
    rw [hds, mem_dance_press_of_finished ho' (isFinished_of_holds hd), hr', hprep]

/-- A release reaches the dances with the layers and the dances as they were. -/
theorem filtered_release_fields (kb : Keyboard) (action : Action) (p : Position) :
    ∃ taken r h, kb.remapper.filtered kb.profile action (.release p) (kb.reporter.updateMatrix (.release p)) =
        (taken, r, h) ∧
      h.layers = kb.reporter.layers ∧ r.dances = kb.remapper.dances :=
  ⟨_, _, _, rfl, layers_filtered kb action (.release p), dances_filter ..⟩

/-- The release of a layer tap, if the filter leaves it, ends the resolved dance of its position, and switches the layer
off of which that was a hold. -/
theorem processKey_release_finished {x : Dance} {m : UInt8} {c : Chord} (ho : Orderly kb.remapper.dances)
    (hx : x ∈ kb.remapper.dances) (hfin : x.isFinished = true)
    (hleft : kb.takes (.layerTap m c) (.release x.position) = false) :
    let kb' := kb.processKey (.layerTap m c) (.release x.position)
    (∀ n, kb'.reporter.layers.isActive n = true ↔ kb.reporter.layers.isActive n = true ∧ x.holds n = false) ∧
      ∀ n d, d ∈ kb'.remapper.holders n ↔ d ∈ kb.remapper.holders n ∧ d ≠ x := by
  intro kb'
  obtain ⟨taken, r, h, he, hl, hd⟩ := filtered_release_fields kb (.layerTap m c) x.position
  cases taken with
  | true => exact absurd (hleft.symm.trans (processKey_of_taken he).1) Bool.false_ne_true
  | false =>
    have ho' : Orderly r.dances := hd ▸ ho
    have hfind : r.dances.find? (·.position == x.position) = some x := by
      cases hfind : r.dances.find? (·.position == x.position) with
      | none => exact absurd (beq_self_eq_true _) (List.find?_eq_none.1 hfind x (hd ▸ hx))
      | some y =>
        obtain ⟨hy, hp⟩ := mem_of_find? hfind
        rw [ho'.unique hy (hd ▸ hx) hp]
    simp only [kb', (processKey_of_left he).2, dispatch]
    refine ⟨fun n => ?_, fun n d => ?_⟩
    · rw [dance_of_finished_release hfind hfin, ← hl]
      exact isActive_undo
    · rw [mem_holders_of_finished_release ho' hfind hfin m c, holders, hd, holders]

/-- Every other release leaves layers and holds as they are. -/
theorem release_cases (ho : Orderly kb.remapper.dances) (action : Action) (p : Position) :
    let kb' := kb.processKey action (.release p)
    (kb'.reporter.layers = kb.reporter.layers ∧
        ∀ n d, d ∈ kb'.remapper.holders n ↔ d ∈ kb.remapper.holders n) ∨
      ∃ m c, action = .layerTap m c ∧ kb.takes action (.release p) = false ∧
        ∃ x ∈ kb.remapper.dances, x.position = p ∧ x.isFinished = true := by
  intro kb'
  have hkeep := Reporter.callsKeep_layers kb.reporter.layers
  obtain ⟨taken, r, h, he, hl, hd⟩ := filtered_release_fields kb action p
  have hsame : ∀ {r' : Remapper}, r'.dances = kb.remapper.dances →
      ∀ n d, d ∈ r'.holders n ↔ d ∈ kb.remapper.holders n := by
    intro r' hr' n d
    rw [holders, hr', holders]
  cases taken with
  | true =>
    refine .inl ?_
    simp only [kb', (processKey_of_taken he).2]
    exact ⟨hl, hsame hd⟩
  | false =>
    obtain ⟨hleft, hkb⟩ := processKey_of_left he
    simp only [kb', hkb]
    cases action with
    | none => exact .inl ⟨hl, hsame hd⟩
    | key c => exact .inl ⟨hkeep.unregisterChord hl, hsame hd⟩
    | shortcut s => exact .inl ⟨hl, hsame hd⟩
    | layerTap m c =>
      have ho' : Orderly r.dances := hd ▸ ho
      cases hfind : r.dances.find? (·.position == p) with
      | none =>
        simp only [dispatch, dance_of_none_release hfind]
        exact .inl ⟨hl, hsame hd⟩
      | some x =>
        obtain ⟨hx, hp⟩ := mem_of_find? hfind
        cases hfin : x.isFinished with
        | true => exact .inr ⟨m, c, rfl, hleft, x, hd ▸ hx, hp, hfin⟩
        | false =>
          refine .inl ⟨?_, fun n d => ?_⟩
          · simp only [dispatch, dance_of_pending_release hfind hfin]
            exact hl
          · rw [← hsame hd]
            exact mem_holders_of_pending_release ho' hfind hfin m c

theorem orderly_apply (ho : Orderly kb.remapper.dances) (op : Op) : Orderly (kb.apply op).remapper.dances := by
  cases op with
  | key action e => exact orderly_process ho kb.profile action e _
  | setLayer n => exact ho
  | finishDance => exact orderly_finishDance ho _
  | receive n => exact ho

/-- The table of a keyboard is orderly after every run. -/
theorem orderly_run (profile : Profile) (capacity : Nat) (ops : List Op) :
    Orderly ((Keyboard.new profile capacity).run ops).remapper.dances :=
  run_keeps (I := fun kb => Orderly kb.remapper.dances) (fun op ho => orderly_apply ho op) Orderly.nil ops

/-! ## What an operation does to the holds of a layer -/

/-- A change of the holds of a layer. -/
inductive HoldChange
  /-- A dance turned out to be a hold of the layer. -/
  | taken
  /-- A hold of the layer was released. -/
  | dropped
  deriving DecidableEq

/-- What an operation does to the holds of a layer. -/
def holdChange? (n : UInt8) (op : Op) (kb : Keyboard) : Option HoldChange :=
  if ∃ d ∈ (kb.apply op).remapper.holders n, d ∉ kb.remapper.holders n then some .taken
  else if ∃ d ∈ kb.remapper.holders n, d ∉ (kb.apply op).remapper.holders n then some .dropped
  else none

variable {op : Op}

theorem holdChange?_of_same (h : ∀ d, d ∈ (kb.apply op).remapper.holders n ↔ d ∈ kb.remapper.holders n) :
    kb.holdChange? n op = none := by
  rw [holdChange?, if_neg, if_neg]
  · rintro ⟨d, hd, hno⟩
    exact hno ((h d).2 hd)
  · rintro ⟨d, hd, hno⟩
    exact hno ((h d).1 hd)

theorem holders_of_no_change (h : kb.holdChange? n op = none) :
    ∀ d, d ∈ (kb.apply op).remapper.holders n ↔ d ∈ kb.remapper.holders n := by
  unfold holdChange? at h
  split at h
  · cases h
  · rename_i htaken
    split at h
    · cases h
    · rename_i hdropped
      intro d
      constructor
      · intro hd
        by_contra hno
        exact htaken ⟨d, hd, hno⟩
      · intro hd
        by_contra hno
        exact hdropped ⟨d, hd, hno⟩

theorem holders_of_taken (h : kb.holdChange? n op = some .taken) :
    ∃ d ∈ (kb.apply op).remapper.holders n, d ∉ kb.remapper.holders n := by
  unfold holdChange? at h
  split at h
  · assumption
  · split at h <;> cases h

/-- A key event begins no hold, and switches a layer off only by the release of a hold. -/
theorem isActive_processKey (ho : Orderly kb.remapper.dances) (action : Action) (e : KeyEvent) (n : UInt8) :
    kb.holdChange? n (.key action e) = none ∧
        (kb.processKey action e).reporter.layers.isActive n = kb.reporter.layers.isActive n ∨
      kb.holdChange? n (.key action e) = some .dropped ∧
        (kb.processKey action e).reporter.layers.isActive n = false := by
  obtain ⟨p, _ | _⟩ := e
  · rcases release_cases ho action p with ⟨hl, hh⟩ | ⟨m, c, rfl, hleft, x, hx, rfl, hfin⟩
    · refine .inl ⟨holdChange?_of_same fun d => hh n d, ?_⟩
      exact congrArg (·.isActive n) hl
    · obtain ⟨hl, hh⟩ := processKey_release_finished ho hx hfin hleft
      cases hn : x.holds n with
      | false =>
        refine .inl ⟨holdChange?_of_same fun d => ?_, ?_⟩
        · refine (hh n d).trans (and_iff_left_of_imp fun hd he => ?_)
          rw [he, mem_holders, hn] at hd
          cases hd.2
        · rw [Bool.eq_iff_iff]
          exact (hl n).trans (and_iff_left hn)
      | true =>
        refine .inr ⟨?_, ?_⟩
        · rw [holdChange?, if_neg, if_pos]
          · exact ⟨x, mem_holders.2 ⟨hx, hn⟩, fun hd => ((hh n x).1 hd).2 rfl⟩
          · rintro ⟨d, hd, hno⟩
            exact hno ((hh n d).1 hd).1
        · rw [Bool.eq_false_iff, Ne, show (⟨x.position, false⟩ : KeyEvent) = .release x.position from rfl, hl n, hn]
          simp
  · exact .inl ⟨holdChange?_of_same fun d => mem_holders_press ho, congrArg (·.isActive n) (layers_press kb action p)⟩

/-- The end of a tapping term switches the layer on of which it begins a hold. -/
theorem isActive_finishDance (ho : Orderly kb.remapper.dances) (hn : n.toNat < layerCount) :
    kb.holdChange? n .finishDance = none ∧
        kb.finishDance.reporter.layers.isActive n = kb.reporter.layers.isActive n ∨
      kb.holdChange? n .finishDance = some .taken ∧ kb.finishDance.reporter.layers.isActive n = true := by
  have hl : kb.finishDance.reporter.layers.isActive n = true ↔
      kb.reporter.layers.isActive n = true ∨
        ∃ d ∈ kb.remapper.dances, (!d.isFinished) = true ∧ d.isFinished = false ∧ d.classified.holds n = true ∧
          n.toNat < layerCount :=
    isActive_settle
  have hh : ∀ d, d ∈ kb.finishDance.remapper.holders n ↔
      d ∈ kb.remapper.holders n ∨
        (∃ x ∈ kb.remapper.dances, x.isFinished = false ∧ x.classified = d) ∧ d.holds n = true := by
    intro d
    rw [mem_holders, mem_holders, ← or_and_right, and_congr_left_iff]
    exact fun hd => mem_finishDance_of_holds hd
  by_cases hnew : ∃ x ∈ kb.remapper.dances, x.isFinished = false ∧ x.classified.holds n = true
  · obtain ⟨x, hx, hf, hhold⟩ := hnew
    refine .inr ⟨?_, hl.2 (.inr ⟨x, hx, by rw [hf]; rfl, hf, hhold, hn⟩)⟩
    rw [holdChange?, if_pos]
    refine ⟨x.classified, (hh _).2 (.inr ⟨⟨x, hx, hf, rfl⟩, hhold⟩), fun hold => ?_⟩
    -- the dance would have been finished before
    have he := ho.unique (mem_holders.1 hold).1 hx rfl
    exact absurd (he ▸ hf : x.classified.isFinished = false) (by simp [isFinished, classified])
  · refine .inl ⟨holdChange?_of_same fun d => ?_, ?_⟩
    · refine (hh d).trans (or_iff_left ?_)
      rintro ⟨⟨x, hx, hf, rfl⟩, hhold⟩
      exact hnew ⟨x, hx, hf, hhold⟩
    · rw [Bool.eq_iff_iff, hl, or_iff_left]
      rintro ⟨x, hx, _, hf, hhold, _⟩
      exact hnew ⟨x, hx, hf, hhold⟩

/-- What becomes of a layer in an operation: it is on if a hold of it has begun, off if one was released, and as
it was otherwise. -/
theorem isActive_apply (ho : Orderly kb.remapper.dances) (hop : ∀ m, op ≠ .setLayer m) (hn : n.toNat < layerCount) :
    (kb.apply op).reporter.layers.isActive n =
      match kb.holdChange? n op with
      | some .taken => true
      | some .dropped => false
      | none => kb.reporter.layers.isActive n := by
  cases op with
  | key action e =>
    rcases isActive_processKey ho action e n with ⟨hc, hl⟩ | ⟨hc, hl⟩
    · rw [hc]; exact hl
    · rw [hc]; exact hl
  | setLayer m => exact absurd rfl (hop m)
  | finishDance =>
    rcases isActive_finishDance ho hn with ⟨hc, hl⟩ | ⟨hc, hl⟩
    · rw [hc]; exact hl
    · rw [hc]; exact hl
  | receive m =>
    rw [holdChange?_of_same fun d => Iff.rfl]
    rfl

/-! ## The layers that are on -/

/-- The layer of an operation that makes one the only active layer. -/
def Op.layer? : Op → Option UInt8
  | .setLayer n => if n.toNat < layerCount then some n else none
  | _ => none

/-- The layer that was set last. -/
def lastLayer? (ops : List Op) : Option UInt8 := (ops.filterMap Op.layer?).getLast?

theorem lastLayer?_concat (ops : List Op) (op : Op) : lastLayer? (ops ++ [op]) = op.layer?.or (lastLayer? ops) := by
  rw [lastLayer?, List.filterMap_append, List.getLast?_append]
  cases h : op.layer? <;> simp [h, lastLayer?]

theorem lastLayer?_eq_none {ops : List Op} (h : ∀ n, Op.setLayer n ∉ ops) : lastLayer? ops = none := by
  have hnil : ops.filterMap Op.layer? = [] := by
    rw [List.filterMap_eq_nil_iff]
    intro op hop
    cases op with
    | setLayer n => exact absurd hop (h n)
    | key _ _ => rfl
    | finishDance => rfl
    | receive _ => rfl
  rw [lastLayer?, hnil]
  rfl

/-- An active layer was set last, or is held. -/
theorem set_or_held (profile : Profile) (capacity : Nat) (ops : List Op) (n : UInt8)
    (ha : ((Keyboard.new profile capacity).run ops).reporter.layers.isActive n = true) :
    lastLayer? ops = some n ∨ ∃ d, d ∈ ((Keyboard.new profile capacity).run ops).remapper.holders n := by
  induction ops using List.reverseRecOn with
  | nil =>
    rw [show ((Keyboard.new profile capacity).run []).reporter.layers = .none from rfl, Layers.isActive_none] at ha
    cases ha
  | append_singleton ops op ih =>
    have ho := orderly_run profile capacity ops
    have hn : n.toNat < layerCount := by
      by_contra hge
      rw [Layers.isActive_of_le (Nat.not_lt.1 hge)] at ha
      cases ha
    rw [run_append, run_cons, run_nil] at ha ⊢
    by_cases hset : ∃ m, op = .setLayer m
    · obtain ⟨m, rfl⟩ := hset
      have hl : ((((Keyboard.new profile capacity).run ops).reporter.setLayer m).layers.isActive n = true) := ha
      rw [Reporter.isActive_setLayer] at hl
      rw [lastLayer?_concat, Op.layer?]
      split at hl
      · rename_i hm
        rw [if_pos hm, hl]
        exact .inl rfl
      · rename_i hm
        rw [if_neg hm]
        exact ih hl
    · have hop : ∀ m, op ≠ .setLayer m := fun m he => hset ⟨m, he⟩
      have hlast : lastLayer? (ops ++ [op]) = lastLayer? ops := by
        rw [lastLayer?_concat]
        cases op with
        | setLayer m => exact absurd rfl (hop m)
        | key _ _ => rfl
        | finishDance => rfl
        | receive _ => rfl
      rw [hlast]
      rw [isActive_apply ho hop hn] at ha
      split at ha
      · rename_i hc
        obtain ⟨d, hd, _⟩ := holders_of_taken hc
        exact .inr ⟨d, hd⟩
      · cases ha
      · rename_i hc
        refine (ih ha).imp_right ?_
        rintro ⟨d, hd⟩
        exact ⟨d, (holders_of_no_change hc d).2 hd⟩

/-- **No layer stays on by itself.** After every run an active layer is the one that was set last, or that of a
dance in progress which turned out to be a hold and whose key is down. So without `setLayer` the highest layer is
0 while nothing dances. Of all operations only the end of a tapping term and `setLayer` switch a layer on: no key
event does. -/
theorem layers_held_or_set (profile : Profile) (capacity : Nat) (ops : List Op) :
    let kb := (Keyboard.new profile capacity).run ops
    (∀ n, kb.reporter.layers.isActive n = true →
        lastLayer? ops = some n ∨
          ∃ d ∈ kb.remapper.dances, d.layer = n ∧ d.outcome? = some .singleHold ∧ d.pressed = true) ∧
      ((∀ n, Op.setLayer n ∉ ops) → kb.remapper.dances = [] → kb.highestLayer = 0) ∧
      (∀ op n, kb.reporter.layers.isActive n = false → (kb.apply op).reporter.layers.isActive n = true →
        op = .finishDance ∨ op = .setLayer n) := by
  intro kb
  have ho : Orderly kb.remapper.dances := orderly_run profile capacity ops
  refine ⟨fun n ha => ?_, fun hset hnil => ?_, fun op n hoff hon => ?_⟩
  · refine (set_or_held profile capacity ops n ha).imp_right ?_
    rintro ⟨d, hd⟩
    obtain ⟨hmem, hhold⟩ := mem_holders.1 hd
    obtain ⟨hout, hlayer⟩ := holds_iff.1 hhold
    exact ⟨d, hmem, hlayer, hout, ho.held d hmem (isFinished_of_holds hhold)⟩
  · refine Layers.highest_eq_zero fun n => Bool.eq_false_iff.2 fun ha => ?_
    rcases set_or_held profile capacity ops n ha with hlast | ⟨d, hd⟩
    · rw [lastLayer?_eq_none hset] at hlast
      cases hlast
    · rw [holders_eq_nil hnil] at hd
      cases hd
  · cases op with
    | key action e =>
      rcases isActive_processKey ho action e n with ⟨_, hl⟩ | ⟨_, hl⟩
      · exact absurd ((hl.trans hoff).symm.trans hon) Bool.false_ne_true
      · exact absurd (hl.symm.trans hon) Bool.false_ne_true
    | setLayer m =>
      have hl : (kb.reporter.setLayer m).layers.isActive n = true := hon
      rw [Reporter.isActive_setLayer] at hl
      split at hl
      · rw [hl]
        exact .inr rfl
      · exact absurd (hoff.symm.trans hl) Bool.false_ne_true
    | finishDance => exact .inl rfl
    | receive m => exact absurd (hoff.symm.trans hon) Bool.false_ne_true

/-- A layer tap is held past its tapping term. -/
def layerHeld : List Op := [.key (.layerTap 1 ⟨.keyZ, .ctrl⟩) ⟨⟨0, 0⟩, true⟩, .finishDance]

theorem layers_held_or_set_layerHeld :
    let kb := (Keyboard.new {} 4).run layerHeld
    let up := kb.processKey (.layerTap 1 ⟨.keyZ, .ctrl⟩) (.release ⟨0, 0⟩)
    kb.reporter.layers.isActive 1 = true ∧ lastLayer? layerHeld = none ∧
      (∃ d ∈ kb.remapper.dances, d.layer = 1 ∧ d.outcome? = some .singleHold ∧ d.pressed = true) ∧
      up.remapper.dances = [] ∧ up.highestLayer = 0 ∧
      (up.reporter.layers.isActive 1 = false ∧ (up.apply (.setLayer 1)).reporter.layers.isActive 1 = true ∧
        (Op.setLayer 1 = .finishDance ∨ Op.setLayer 1 = .setLayer 1)) := by
  have hactive : ((Keyboard.new {} 4).run layerHeld).reporter.layers.isActive 1 = true := by decide +kernel
  have hnone : lastLayer? layerHeld = none := by decide +kernel
  have hheld := (layers_held_or_set {} 4 layerHeld).1 1 hactive
  rw [hnone] at hheld
  have hup := layers_held_or_set {} 4 (layerHeld ++ [.key (.layerTap 1 ⟨.keyZ, .ctrl⟩) ⟨⟨0, 0⟩, false⟩])
  have hoff : (((Keyboard.new {} 4).run layerHeld).processKey (.layerTap 1 ⟨.keyZ, .ctrl⟩)
    (.release ⟨0, 0⟩)).reporter.layers.isActive 1 = false := by decide +kernel
  have hon : ((((Keyboard.new {} 4).run layerHeld).processKey (.layerTap 1 ⟨.keyZ, .ctrl⟩)
    (.release ⟨0, 0⟩)).apply (.setLayer 1)).reporter.layers.isActive 1 = true := by decide +kernel
  exact ⟨hactive, hnone, hheld.resolve_left nofun, by decide +kernel,
    hup.2.1 (by simp [layerHeld]) (by decide +kernel), hoff, hon, hup.2.2 (.setLayer 1) 1 hoff hon⟩

end Keyboard

end ShiftRemap
