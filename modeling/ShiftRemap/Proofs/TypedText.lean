import ShiftRemap.Proofs.PlainRuns
import ShiftRemap.Proofs.SentReports

/-!
# Typing a text

A text is typed in groups, each with the shift key down or not, one key after the other (`Group`). If no pair
has two shifted chords, the host reads exactly the chords off the reports that an ideal remapper would type,
one for each key (`Group.ideal`).

Between two strokes the slots are empty, left shift is registered exactly if the shift key is down, and shift
is tracked only then (`Resting`). A stroke types its chord on the press and comes back to such a state on the
release (`ShiftBits.stroke`, `Resting.stroke`), although the tracked flag may differ from before.
-/

namespace ShiftRemap

open Keyboard Remapper Session

/-! ## Texts -/

/-- Keys that are typed one after the other, with the shift key down or not. -/
structure Group where
  shift : Bool
  keys : List (Position × KeyCode)

namespace Group

/-- The press and the release of a plain key. -/
def stroke (x : Position × KeyCode) : List Op :=
  [.key (.key ⟨x.2, .empty⟩) ⟨x.1, true⟩, .key (.key ⟨x.2, .empty⟩) ⟨x.1, false⟩]

/-- The events of a group, if the shift key is at `shift`. -/
def ops (shift : Position) (g : Group) : List Op :=
  if g.shift then .key .shift ⟨shift, true⟩ :: (g.keys.flatMap stroke ++ [.key .shift ⟨shift, false⟩])
  else g.keys.flatMap stroke

/-- What an ideal remapper types for a key: the chord of its pair, or the key as it is. -/
def idealStroke (table : PairTable) (shift : Bool) (k : KeyCode) : UInt8 × Bool :=
  match table.get? k with
  | some p => ((p.output shift).key.usage, (p.output shift).isShifted)
  | none => (k.usage, shift)

/-- What an ideal remapper types for a group. -/
def ideal (table : PairTable) (g : Group) : List (UInt8 × Bool) :=
  g.keys.map fun x => idealStroke table g.shift x.2

end Group

/-- The strokes that the host reads off the reports of a keyboard. -/
def Keyboard.typed (kb : Keyboard) : List (UInt8 × Bool) := kb.reporter.typed

/-! ## The two bits through a stroke -/

/-- A stroke leaves left shift as the shift key has it, and tracks shift only while the shift key is down. -/
theorem ShiftBits.stroke {b : ShiftBits} {shift : Bool} (pair? : Option Pair) (hbit : b.bit = shift)
    (hheld : b.held = true → shift = true)
    (hpair : ∀ p ∈ pair?, ¬ (p.normal.isShifted = true ∧ p.shifted.isShifted = true)) :
    let b' := (b.press pair? false).release pair? false !shift
    b'.bit = shift ∧ (b'.held = true → shift = true) := by
  cases shift with
  | false => exact ⟨rfl, nofun⟩
  | true =>
    refine ⟨?_, fun _ => rfl⟩
    cases pair? with
    | none => simp [press, release, hbit]
    | some p =>
      have hp := hpair p rfl
      cases hn : p.normal.isShifted <;> cases hs : p.shifted.isShifted <;>
        simp_all [press, release, Pair.output, Pair.restoresShift]

/-! ## What an event sends -/

namespace Reporter.Synced

variable {r : Reporter} {table : PairTable} {k : KeyCode} {p : Position} {held : Bool}

theorem track (h : r.Synced) (t : ShiftTracker) (e : KeyEvent) :
    (t.track e r).2.Synced ∧ (t.track e r).2.typed = r.typed := by
  obtain ⟨hs, ht⟩ := h.setShift false
  unfold ShiftTracker.track
  split
  · dsimp only
    split
    · obtain ⟨hn, hnt⟩ := hs.hear (n := .shiftCleared) rfl
      exact ⟨hn, hnt.trans ht⟩
    · exact ⟨hs, ht⟩
  · split
    · split
      · exact ⟨h, rfl⟩
      · dsimp only
        split
        · exact ⟨hs, ht⟩
        · exact ⟨h, rfl⟩
    · exact ⟨h, rfl⟩

theorem struck_release (h : r.Synced) (table : PairTable) (k : KeyCode) (p : Position) (held : Bool) :
    (struck table (.key ⟨k, .empty⟩) (.release p) held r).Synced ∧
      (struck table (.key ⟨k, .empty⟩) (.release p) held r).typed = r.typed := by
  unfold struck
  split
  · rename_i pair _
    obtain ⟨hn, hnt⟩ := h.unregister pair.normal.key
    obtain ⟨hs, hst⟩ := hn.unregister pair.shifted.key
    obtain ⟨hr, hrt⟩ := hs.setShift held
    simp only [KeyEvent.release, Bool.false_eq_true, if_false, ShiftFilter.release]
    split
    · exact ⟨hr, hrt.trans (hst.trans hnt)⟩
    · exact ⟨hs, hst.trans hnt⟩
  · simp only [KeyEvent.release, Bool.false_eq_true, if_false, unregisterChord_plain]
    exact h.unregister k

/-- A press on empty slots adds one stroke. -/
theorem struck_press (h : r.Synced) (hs : r.slots = .empty) (hk : k.canTrigger = true)
    (ht : ∀ q ∈ table.pairs, q.Typable) (hheld : r.mods.has .leftShift = held) :
    (struck table (.key ⟨k, .empty⟩) (.press p) held r).Synced ∧
      (struck table (.key ⟨k, .empty⟩) (.press p) held r).typed = r.typed ++ [Group.idealStroke table held k] := by
  have htrig : triggerOf (.key ⟨k, .empty⟩) = k := rfl
  rw [struck, htrig, Group.idealStroke]
  cases hp : table.get? k with
  | some pair =>
    obtain ⟨h0, hm⟩ := KeyCode.canTrigger_iff.1 ((ht pair (PairTable.mem_of_get? hp).1).output held)
    obtain ⟨hn, hnt⟩ := h.hear (n := .hijacked pair.trigger held (pair.output held)) rfl
    obtain ⟨ho, hot⟩ := hn.setShift (pair.output held).isShifted
    obtain ⟨hu, hut⟩ := ho.unregister (pair.output held).key
    have hslots := Reporter.Synced.slots_unregister_empty ((Reporter.slots_setShift (pair.output held).isShifted
      (r.hear (.hijacked pair.trigger held (pair.output held)))).trans hs) (pair.output held).key
    obtain ⟨hr, hrt⟩ := hu.register_empty hslots (KeyCode.modifier?_eq_none hm) h0
    refine ⟨hr, hrt.trans ?_⟩
    have hne : (pair.output held).key ≠ Modifier.leftShift.key := fun he => by rw [he] at hm; cases hm
    rw [hut, hot, hnt, Reporter.has_unregister, Reporter.has_setShift]
    simp [hne]
  | none =>
    obtain ⟨h0, hm⟩ := KeyCode.canTrigger_iff.1 hk
    simp only [KeyEvent.press, if_true, registerChord_plain]
    rw [← hheld]
    exact h.register_empty hs (KeyCode.modifier?_eq_none hm) h0

end Reporter.Synced

namespace Session.Plain

variable {shift p : Position} {s : Session} {action : Action} {k : KeyCode}

theorem typed_release (h : s.Plain shift) (hok : s.PlainStep shift (.key action ⟨p, false⟩))
    (hs : s.keyboard.reporter.Synced) :
    let s' := s.apply (.key action ⟨p, false⟩)
    s'.keyboard.reporter.Synced ∧ s'.keyboard.typed = s.keyboard.typed := by
  obtain ⟨hijacked, he⟩ := h.processKey_eq hok
  obtain ⟨j, rfl, _⟩ := (hok.bound action _ rfl).eq_key
  obtain ⟨hu, hut⟩ := hs.updateMatrix ⟨p, false⟩
  obtain ⟨ht, htt⟩ := hu.track s.keyboard.remapper.tracker ⟨p, false⟩
  obtain ⟨hr, hrt⟩ := ht.struck_release s.keyboard.profile.pairs j p
    (s.keyboard.remapper.tracker.track ⟨p, false⟩ (s.keyboard.reporter.updateMatrix ⟨p, false⟩)).1.shiftHeld
  have hrep : (s.apply (.key (.key ⟨j, .empty⟩) ⟨p, false⟩)).keyboard.reporter = _ := congrArg Keyboard.reporter he
  simp only [Keyboard.typed, hrep]
  exact ⟨hr, hrt.trans (htt.trans hut)⟩

/-- The press of the shift key adds no stroke. -/
theorem typed_press_shift (h : s.Plain shift) (hok : s.PlainStep shift (.key .shift ⟨p, true⟩))
    (hs : s.keyboard.reporter.Synced) :
    let s' := s.apply (.key .shift ⟨p, true⟩)
    s'.keyboard.reporter.Synced ∧ s'.keyboard.typed = s.keyboard.typed := by
  obtain ⟨hijacked, he⟩ := h.processKey_eq hok
  obtain ⟨hu, hut⟩ := hs.updateMatrix ⟨p, true⟩
  rw [h.track_press hok] at he
  simp only [struck, h.basic.get?_shift] at he
  simp only [Action.shift, if_true, registerChord_plain] at he
  obtain ⟨hr, hrt⟩ := hu.register_modifier (KeyCode.modifier?_key .leftShift)
  have hrep : (s.apply (.key .shift ⟨p, true⟩)).keyboard.reporter = _ := congrArg Keyboard.reporter he
  simp only [Keyboard.typed, hrep]
  exact ⟨hr, hrt.trans hut⟩

theorem typed_press (h : s.Plain shift) (hok : s.PlainStep shift (.key (.key ⟨k, .empty⟩) ⟨p, true⟩))
    (hs : s.keyboard.reporter.Synced) (hempty : s.keyboard.reporter.slots = .empty) (hk : k.canTrigger = true)
    (hheld : s.bits.held = true → s.bits.bit = true) :
    let s' := s.apply (.key (.key ⟨k, .empty⟩) ⟨p, true⟩)
    s'.keyboard.reporter.Synced ∧
      s'.keyboard.typed = s.keyboard.typed ++ [Group.idealStroke s.keyboard.profile.pairs s.bits.bit k] := by
  obtain ⟨hijacked, he⟩ := h.processKey_eq hok
  obtain ⟨hu, hut⟩ := hs.updateMatrix ⟨p, true⟩
  have hor : (s.bits.held || s.bits.bit) = s.bits.bit := by
    cases hh : s.bits.held
    · rfl
    · rw [hheld hh]; rfl
  rw [h.track_press hok, hor] at he
  obtain ⟨hr, hrt⟩ := hu.struck_press (p := p) ((Reporter.updateMatrix_slots ..).trans hempty) hk h.basic.typable
    (congrArg (Modifiers.has · .leftShift) (Reporter.updateMatrix_mods ..))
  have hrep : (s.apply (.key (.key ⟨k, .empty⟩) ⟨p, true⟩)).keyboard.reporter = _ := congrArg Keyboard.reporter he
  simp only [Keyboard.typed, hrep]
  exact ⟨hr, hrt.trans (by rw [hut]; rfl)⟩

/-- While nothing but the shift key is down, the slots are empty. -/
theorem slots_eq_empty (h : s.Plain shift) (hdown : ∀ k ∈ s.down, k.action = .shift) :
    s.keyboard.reporter.slots = .empty := by
  refine Reporter.slots_eq_empty h.accounted.owned.tidy fun c hc hr => ?_
  rcases h.accounted.owned.owner c hr with rfl | ⟨x, hx, hcx⟩ | ⟨d, hd, _⟩
  · cases hc
  · have hj : x.hijacked = false := by
      rw [h.hijacked x hx, Stroke.isTrigger, hdown x hx, h.basic.get?_shift]
      rfl
    obtain ⟨chord, ha, hmem⟩ := (Stroke.mem_keys_left hj).1 hcx
    rw [hdown x hx] at ha
    cases ha
    rw [Chord.keys, comboKeys_empty, List.mem_singleton] at hmem
    rw [hmem] at hc
    cases hc
  · rw [h.dances] at hd
    cases hd

end Session.Plain

/-! ## Between two strokes -/

namespace Session

/-- Nothing is down but perhaps the shift key, and shift is as that key has it. -/
structure Resting (shift : Position) (profile : Profile) (on : Bool) (s : Session) : Prop where
  scene : s.At shift profile (if on then [(shift, .shift)] else []) s.bits
  bit : s.bits.bit = on
  held : s.bits.held = true → on = true
  synced : s.keyboard.reporter.Synced

namespace Resting

variable {shift : Position} {profile : Profile} {on : Bool} {s : Session}

theorem of_at {b : ShiftBits} (on : Bool) (h : s.At shift profile (if on then [(shift, .shift)] else []) b)
    (hbit : b.bit = on) (hheld : b.held = true → on = true) (hs : s.keyboard.reporter.Synced) :
    s.Resting shift profile on := by
  obtain rfl := h.bits
  exact ⟨h, hbit, hheld, hs⟩

theorem new (h : profile.Basic) (shift : Position) (capacity : Nat) :
    (Session.new profile capacity).Resting shift profile false :=
  .of_at false (At.new h shift capacity) rfl nofun (.new capacity)

/-- A stroke adds what an ideal remapper would type. -/
theorem stroke (h : s.Resting shift profile on)
    (hpairs : ∀ p ∈ profile.pairs.pairs, ¬ (p.normal.isShifted = true ∧ p.shifted.isShifted = true))
    {x : Position × KeyCode} (hx : x.1 ≠ shift) (hk : x.2.canTrigger = true) :
    (s.run (Group.stroke x)).Resting shift profile on ∧
      (s.run (Group.stroke x)).keyboard.typed = s.keyboard.typed ++ [Group.idealStroke profile.pairs on x.2] := by
  obtain ⟨p, k⟩ := x
  have hbound : BoundTo shift p (.key ⟨k, .empty⟩) := by
    rw [BoundTo, if_neg hx]
    exact ⟨k, (KeyCode.canTrigger_iff.1 hk).2, rfl⟩
  have hdown : ∀ e ∈ (if on then [(shift, Action.shift)] else []), e = (shift, Action.shift) := by
    cases on <;> simp
  have hlen : (if on then [(shift, Action.shift)] else []).length < HijackedKeys.capacity := by
    cases on <;> simp [HijackedKeys.capacity]
  obtain ⟨hok₁, ha₁⟩ := h.scene.press (fun e he => by rw [hdown e he]; exact Ne.symm hx) hbound hlen
  obtain ⟨hok₂, ha₂⟩ := ha₁.release (List.mem_cons_self ..) hlen
  -- the press types the chord, and the release shows nothing new
  have hempty := h.scene.plain.slots_eq_empty fun x hx => congrArg Prod.snd (hdown _ (h.scene.mem_held hx))
  obtain ⟨hs₁, ht₁⟩ := h.scene.plain.typed_press hok₁ h.synced hempty hk fun hh => h.bit.trans (h.held hh)
  obtain ⟨hs₂, ht₂⟩ := ha₁.plain.typed_release hok₂ hs₁
  rw [h.scene.profile, h.bit] at ht₁
  -- only the shift key is left, and the two bits are as before
  have hrest : List.filter (·.1 != p) ((p, .key ⟨k, .empty⟩) :: if on then [(shift, Action.shift)] else []) =
      if on then [(shift, Action.shift)] else [] := by
    cases on <;> simp [Ne.symm hx]
  have hlast : (if on then [(shift, Action.shift)] else []).isEmpty = !on := by cases on <;> rfl
  rw [hrest, hlast, decide_eq_false hx] at ha₂
  obtain ⟨hbit, hheld⟩ := ShiftBits.stroke (profile.pairs.get? k) h.bit h.held
    fun q hq => hpairs q (PairTable.mem_of_get? hq).1
  exact ⟨.of_at on ha₂ hbit hheld hs₂, ht₂.trans ht₁⟩

theorem strokes (h : s.Resting shift profile on)
    (hpairs : ∀ p ∈ profile.pairs.pairs, ¬ (p.normal.isShifted = true ∧ p.shifted.isShifted = true))
    {xs : List (Position × KeyCode)} (hxs : ∀ x ∈ xs, x.1 ≠ shift ∧ x.2.canTrigger = true) :
    (s.run (xs.flatMap Group.stroke)).Resting shift profile on ∧
      (s.run (xs.flatMap Group.stroke)).keyboard.typed =
        s.keyboard.typed ++ xs.map fun x => Group.idealStroke profile.pairs on x.2 := by
  induction xs generalizing s with
  | nil => exact ⟨h, by simp [Session.run]⟩
  | cons x xs ih =>
    obtain ⟨hx, hk⟩ := hxs x (List.mem_cons_self ..)
    obtain ⟨h₁, ht₁⟩ := h.stroke hpairs hx hk
    obtain ⟨h₂, ht₂⟩ := ih h₁ fun y hy => hxs y (List.mem_cons_of_mem _ hy)
    rw [List.flatMap_cons, Session.run_append]
    exact ⟨h₂, by rw [ht₂, ht₁, List.map_cons, List.append_assoc, List.singleton_append]⟩

/-- The shift key goes down. -/
theorem press_shift (h : s.Resting shift profile false) :
    (s.apply (.key .shift ⟨shift, true⟩)).Resting shift profile true ∧
      (s.apply (.key .shift ⟨shift, true⟩)).keyboard.typed = s.keyboard.typed := by
  obtain ⟨hok, ha⟩ := h.scene.press (p := shift) nofun ((if_pos rfl).mpr rfl) (by simp [HijackedKeys.capacity])
  obtain ⟨hs, ht⟩ := h.scene.plain.typed_press_shift hok h.synced
  rw [h.scene.basic.get?_shift] at ha
  exact ⟨.of_at true ha (by simp [ShiftBits.press]) (fun _ => rfl) hs, ht⟩

/-- The shift key comes up. -/
theorem release_shift (h : s.Resting shift profile true) :
    (s.apply (.key .shift ⟨shift, false⟩)).Resting shift profile false ∧
      (s.apply (.key .shift ⟨shift, false⟩)).keyboard.typed = s.keyboard.typed := by
  obtain ⟨hok, ha⟩ := h.scene.release (p := shift) (List.mem_singleton_self _) (by simp [HijackedKeys.capacity])
  obtain ⟨hs, ht⟩ := h.scene.plain.typed_release hok h.synced
  have hnone : [(shift, Action.shift)].filter (·.1 != shift) = [] := by simp
  simp only [if_true, hnone] at ha
  exact ⟨.of_at false ha rfl nofun hs, ht⟩

theorem group (h : s.Resting shift profile false)
    (hpairs : ∀ p ∈ profile.pairs.pairs, ¬ (p.normal.isShifted = true ∧ p.shifted.isShifted = true))
    {g : Group} (hg : ∀ x ∈ g.keys, x.1 ≠ shift ∧ x.2.canTrigger = true) :
    (s.run (g.ops shift)).Resting shift profile false ∧
      (s.run (g.ops shift)).keyboard.typed = s.keyboard.typed ++ g.ideal profile.pairs := by
  unfold Group.ops Group.ideal
  split
  · rename_i hon
    obtain ⟨h₁, ht₁⟩ := h.press_shift
    obtain ⟨h₂, ht₂⟩ := h₁.strokes hpairs hg
    obtain ⟨h₃, ht₃⟩ := h₂.release_shift
    have hrun : s.run (.key .shift ⟨shift, true⟩ :: (g.keys.flatMap Group.stroke ++ [.key .shift ⟨shift, false⟩])) =
        ((s.apply (.key .shift ⟨shift, true⟩)).run (g.keys.flatMap Group.stroke)).apply
          (.key .shift ⟨shift, false⟩) :=
      Session.run_append (s.apply (.key .shift ⟨shift, true⟩)) _ _
    rw [hrun]
    exact ⟨h₃, by rw [ht₃, ht₂, ht₁, hon]⟩
  · rename_i hoff
    rw [Bool.eq_false_iff.2 hoff]
    exact h.strokes hpairs hg

theorem groups (h : s.Resting shift profile false)
    (hpairs : ∀ p ∈ profile.pairs.pairs, ¬ (p.normal.isShifted = true ∧ p.shifted.isShifted = true))
    {gs : List Group} (hgs : ∀ g ∈ gs, ∀ x ∈ g.keys, x.1 ≠ shift ∧ x.2.canTrigger = true) :
    (s.run (gs.flatMap (Group.ops shift))).Resting shift profile false ∧
      (s.run (gs.flatMap (Group.ops shift))).keyboard.typed =
        s.keyboard.typed ++ gs.flatMap (Group.ideal profile.pairs) := by
  induction gs generalizing s with
  | nil => exact ⟨h, by simp [Session.run]⟩
  | cons g gs ih =>
    obtain ⟨h₁, ht₁⟩ := h.group hpairs (hgs g (List.mem_cons_self ..))
    obtain ⟨h₂, ht₂⟩ := ih h₁ fun g' hg' => hgs g' (List.mem_cons_of_mem _ hg')
    rw [List.flatMap_cons, Session.run_append]
    exact ⟨h₂, by rw [ht₂, ht₁, List.flatMap_cons, List.append_assoc]⟩

end Resting

end Session

/-- **A text is typed as by an ideal remapper**, and nothing is held after it, on a keyboard with accepted
settings in which no pair has two shifted chords. -/
theorem accepted_typed_eq_ideal {s : Settings} (h : s.check = .ok ()) (hb : s.baseLayer = 0) :
    ∃ profile, s.profile = .ok profile ∧
      ((∀ p ∈ profile.pairs.pairs, ¬ (p.normal.isShifted = true ∧ p.shifted.isShifted = true)) →
        ∀ (shift : Position) (capacity : Nat) (gs : List Group),
          (∀ g ∈ gs, ∀ x ∈ g.keys, x.1 ≠ shift ∧ x.2.canTrigger = true) →
          let kb := (Keyboard.new profile capacity).run (gs.flatMap (Group.ops shift))
          kb.typed = gs.flatMap (Group.ideal profile.pairs) ∧ kb.report = .idle ∧
            kb.reporter.attempted.getLastD .idle = .idle) := by
  obtain ⟨profile, ha⟩ := Settings.profile_of_check h
  refine ⟨profile, ha.made, fun hpairs shift capacity gs hgs => ?_⟩
  obtain ⟨hr, ht⟩ := (Resting.new (ha.basic hb) shift capacity).groups hpairs hgs
  have hup : ((Session.new profile capacity).run (gs.flatMap (Group.ops shift))).down = [] :=
    List.map_eq_nil_iff.1 hr.scene.held
  have hrest := hr.scene.plain.accounted.atRest hup
  have hrun : ((Session.new profile capacity).run (gs.flatMap (Group.ops shift))).keyboard =
      (Keyboard.new profile capacity).run (gs.flatMap (Group.ops shift)) := Session.keyboard_run _ _
  rw [← hrun]
  exact ⟨ht, hrest.report, hr.synced.attempted.trans (hr.synced.last.trans hrest.report)⟩

/-- The keys a and comma without shift, then comma, a and comma under one shift. -/
def commaText : List Group :=
  [⟨false, [(⟨0, 1⟩, .keyA), (⟨0, 2⟩, .comma)]⟩,
    ⟨true, [(⟨0, 2⟩, .comma), (⟨0, 1⟩, .keyA), (⟨0, 2⟩, .comma)]⟩]

theorem typed_commaText :
    Settings.commaSettings.check = .ok () ∧ Settings.commaSettings.baseLayer = 0 ∧
      ∃ profile, Settings.commaSettings.profile = .ok profile ∧
        ((Keyboard.new profile 1).run (commaText.flatMap (Group.ops ⟨0, 0⟩))).typed =
          [(KeyCode.keyA.usage, false), (KeyCode.comma.usage, false), (KeyCode.semicolon.usage, false),
            (KeyCode.keyA.usage, true), (KeyCode.semicolon.usage, false)] := by
  obtain ⟨profile, hmade, htyped⟩ := accepted_typed_eq_ideal Settings.check_commaSettings rfl
  have hpairs := Settings.pairs_commaSettings hmade
  refine ⟨Settings.check_commaSettings, rfl, profile, hmade, ?_⟩
  obtain ⟨ht, _⟩ := htyped (by rw [hpairs]; decide) ⟨0, 0⟩ 1 commaText (by decide)
  rw [ht, show profile.pairs = ⟨_⟩ from congrArg PairTable.mk hpairs]
  decide

end ShiftRemap
