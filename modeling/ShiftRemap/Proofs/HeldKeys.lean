import Mathlib.Data.List.Perm.Subperm
import ShiftRemap.Proofs.PlainRuns
import ShiftRemap.Proofs.Untriggered

/-!
# The report shows what is down

On a keyboard whose positions are bound to plain keys, with no press that triggers a pair, the report is that of
the keys that are down: the bit of each modifier key, and each other key in one slot (`Report.Shows`). This holds as
long as the keys that are down differ and the slots have room for them, in whatever order they come and go
(`Session.PlainTyping`), and after every event.

The invariant is that the registered keys are the keys that are down (`Session.Shown`). A press registers its key,
since with at most five others a slot is free (`hasRoom`); a release takes it away. The tracker, which sees every event
first, changes the report only when the matrix is idle, and then no key is down that it could take away.
-/

namespace ShiftRemap

open Keyboard Remapper

/-! ## What a report shows -/

/-- The bits of all modifier keys among some keys. -/
def Modifiers.ofKeys (ks : List KeyCode) : Modifiers := ks.foldr (fun k s => k.modifiers.union s) empty

/-- The report of some keys: the bits of the modifier keys, and each of the others in one slot. -/
structure Report.Shows (r : Report) (ks : List KeyCode) : Prop where
  modifier : r.modifier = (Modifiers.ofKeys ks).toByte
  keycodes : (r.keycodes.toList.filter (· ≠ 0)).Perm ((ks.filter fun k => !k.isModifier).map KeyCode.usage)

theorem KeyCode.has_modifiers (k : KeyCode) (m : Modifier) : k.modifiers.has m = decide (k = m.key) := by
  unfold modifiers
  split
  · rename_i n hn
    rw [Modifiers.has_insert, Modifiers.has_empty, Bool.false_or, eq_key_of_modifier? hn]
    simp only [Modifier.key_inj]
  · rename_i hn
    have hne : k ≠ m.key := by
      rintro rfl
      rw [modifier?_key] at hn
      cases hn
    simp [hne]

theorem KeyCode.usage_eq_zero_iff {k : KeyCode} : k.usage = 0 ↔ k = .no := by
  have hno : KeyCode.no.usage = 0 := rfl
  rw [← hno]
  exact ⟨usage_injective, congrArg usage⟩

theorem Modifiers.has_ofKeys (ks : List KeyCode) (m : Modifier) : (ofKeys ks).has m = decide (m.key ∈ ks) := by
  induction ks with
  | nil => simp [ofKeys]
  | cons k ks ih =>
    rw [ofKeys, List.foldr_cons, has_union, ← ofKeys, ih, KeyCode.has_modifiers]
    simp [eq_comm]

namespace Slots

/-- The keys in the slots differ. -/
theorem Tidy.nodup {s : Slots} (hs : s.Tidy) : (s.cells.filter (· ≠ .no)).Nodup := by
  rw [List.nodup_iff_count_le_one]
  intro k
  by_cases hk : k = .no
  · subst hk
    rw [List.count_eq_zero.2 (by simp)]
    exact Nat.zero_le 1
  · exact Nat.le_trans (List.filter_sublist.count_le k) (hs.once k hk)

end Slots

namespace Reporter

variable {r : Reporter} {ks : List KeyCode} {k : KeyCode}

theorem mem_slots_iff (hs : r.slots.Tidy) (h : ∀ c, r.registered c ↔ c ∈ ks) (hk : k ≠ .no) :
    k ∈ r.slots.cells ↔ k ∈ ks ∧ k.isModifier = false := by
  rw [← h]
  constructor
  · intro hmem
    have hplain := hs.plain k hmem
    exact ⟨(registered_plain hplain).2 ⟨hk, hmem⟩, KeyCode.isModifier_eq_false_iff.2 hplain⟩
  · rintro ⟨hreg, hm⟩
    exact ((registered_plain (KeyCode.isModifier_eq_false_iff.1 hm)).1 hreg).2

/-- As long as fewer keys than there are slots are registered, another one has room. -/
theorem hasRoom_of_few (hs : r.slots.Tidy) (h : ∀ c, r.registered c ↔ c ∈ ks) (hk : k ≠ .no)
    (hfew : k.isModifier = false → (ks.filter fun c => !c.isModifier).length < 6) : r.hasRoom k := by
  intro hplain
  refine ⟨hk, .inr (Decidable.byContradiction fun hfull => ?_)⟩
  have hall : r.slots.cells.filter (· ≠ .no) = r.slots.cells :=
    List.filter_eq_self.2 fun c hc => by simpa using fun he : c = .no => hfull (he ▸ hc)
  have hsub : r.slots.cells ⊆ ks.filter fun c => !c.isModifier := by
    intro c hc
    obtain ⟨hmem, hm⟩ := (mem_slots_iff hs h fun he => hfull (he ▸ hc)).1 hc
    exact List.mem_filter.2 ⟨hmem, by simp [hm]⟩
  have hle := (List.subperm_of_subset (hall ▸ hs.nodup) hsub).length_le
  rw [r.slots.length_eq] at hle
  have := hfew (KeyCode.isModifier_eq_false_iff.2 hplain)
  omega

theorem shows_of_registered (hs : r.slots.Tidy) (hn : ks.Nodup) (h0 : .no ∉ ks) (h : ∀ c, r.registered c ↔ c ∈ ks) :
    r.report.Shows ks where
  modifier := by
    have hmods : r.mods = .ofKeys ks := by
      refine Modifiers.ext_has fun m => ?_
      rw [Modifiers.has_ofKeys, Bool.eq_iff_iff, ← registered_key, h, decide_eq_true_iff]
    rw [report, hmods]
  keycodes := by
    have hcells : (r.report.keycodes.toList.filter (· ≠ 0)) = (r.slots.cells.filter (· ≠ .no)).map KeyCode.usage := by
      rw [show r.report.keycodes = r.slots.usages from rfl, Slots.toList_usages, List.filter_map]
      congr 1
      exact List.filter_congr fun k _ => by simp [KeyCode.usage_eq_zero_iff]
    rw [hcells]
    refine List.Perm.map _ ((List.perm_ext_iff_of_nodup hs.nodup (hn.filter _)).2 fun c => ?_)
    by_cases hc : c = .no
    · subst hc
      simp [h0]
    · simp [mem_slots_iff hs h hc, hc]

end Reporter

/-! ## Plain key events -/

/-- A key event of a position that is bound to a plain key, or no key event. -/
def Keyboard.Op.IsPlain : Op → Prop
  | .key (.key c) _ => c.mods = .empty ∧ c.key ≠ .no
  | .key _ _ => False
  | .setLayer _ | .finishDance | .receive _ => True

instance (op : Op) : Decidable op.IsPlain :=
  match op with
  | .key (.key _) _ => inferInstanceAs (Decidable (_ ∧ _))
  | .key .none _ | .key (.shortcut _) _ | .key (.layerTap _ _) _ => .isFalse id
  | .setLayer _ | .finishDance | .receive _ => .isTrue trivial

theorem Keyboard.Op.IsPlain.eq_key {action : Action} {e : KeyEvent} (h : (Op.key action e).IsPlain) :
    ∃ k, k ≠ .no ∧ action = .key ⟨k, .empty⟩ := by
  cases action with
  | key c =>
    obtain ⟨k, mods⟩ := c
    obtain ⟨rfl, hk⟩ := h
    exact ⟨k, hk, rfl⟩
  | none => exact h.elim
  | shortcut s => exact h.elim
  | layerTap n c => exact h.elim

/-- Where nothing dances and no press was hijacked, a plain key that triggers no pair passes the tracker, and then
it is registered or unregistered. -/
theorem Keyboard.processKey_plain {kb : Keyboard} {k : KeyCode} {e : KeyEvent} (hd : kb.remapper.dances = [])
    (hh : kb.remapper.hijacked = {}) (ht : ¬ kb.Triggers (.key (.key ⟨k, .empty⟩) e)) :
    kb.processKey (.key ⟨k, .empty⟩) e =
      let t := kb.remapper.tracker.track e (kb.reporter.updateMatrix e)
      { kb with
        remapper := { kb.remapper with tracker := t.1 }
        reporter := if e.pressed then KeyHost.register k t.2 else KeyHost.unregister k t.2 } := by
  have hf : kb.remapper.filtered kb.profile (.key ⟨k, .empty⟩) e (kb.reporter.updateMatrix e) =
      let t := kb.remapper.tracker.track e (kb.reporter.updateMatrix e)
      (false, { kb.remapper with tracker := t.1 }, t.2) := by
    rw [filtered, prepare_of_nil hd]
    cases he : e.pressed with
    | true =>
      refine filter_press_left he ?_
      have hlayer : KeyHost.highestLayer (kb.reporter.updateMatrix e) = kb.highestLayer :=
        congrArg Layers.highest (Reporter.updateMatrix_layers e kb.reporter)
      unfold triggered?
      rw [hlayer]
      split
      · rename_i hbase
        exact Option.not_isSome_iff_eq_none.1 fun hsome => ht ⟨he, beq_iff_eq.1 hbase, hsome⟩
      · rfl
    | false =>
      refine filter_release_left he ?_
      rw [hh]
      rfl
  rw [(processKey_of_left hf).2]
  simp only [dispatch, applyAction, if_true, registerChord_plain, unregisterChord_plain]

namespace Session

/-! ## Runs -/

/-- The keys that are down. -/
def keysDown (s : Session) : List KeyCode := s.down.map fun k => triggerOf k.action

/-- An operation of a run with plain keys: presses and releases alternate, no press triggers a pair, and the keys
that are down differ and have room in the slots. -/
structure PlainTyping (s : Session) (op : Op) : Prop where
  alternates : s.Alternates op
  plain : op.IsPlain
  untriggered : ¬ s.keyboard.Triggers op
  differ : (s.apply op).keysDown.Nodup
  room : ((s.apply op).keysDown.filter fun k => !k.isModifier).length ≤ 6

instance (s : Session) (op : Op) : Decidable (s.PlainTyping op) :=
  decidable_of_iff (s.Alternates op ∧ op.IsPlain ∧ ¬ s.keyboard.Triggers op ∧ (s.apply op).keysDown.Nodup ∧
      ((s.apply op).keysDown.filter fun k => !k.isModifier).length ≤ 6)
    ⟨fun ⟨ha, hp, hu, hd, hr⟩ => ⟨ha, hp, hu, hd, hr⟩, fun ⟨ha, hp, hu, hd, hr⟩ => ⟨ha, hp, hu, hd, hr⟩⟩

/-- The registered keys are the keys that are down. -/
structure Shown (s : Session) : Prop where
  dances : s.keyboard.remapper.dances = []
  hijacked : s.keyboard.remapper.hijacked = {}
  tidy : s.keyboard.reporter.slots.Tidy
  tracked : s.Tracked
  apart : s.positions.Nodup
  differ : s.keysDown.Nodup
  ne_no : .no ∉ s.keysDown
  registered : ∀ c, s.keyboard.reporter.registered c ↔ c ∈ s.keysDown

variable {s : Session} {op : Op} {action : Action} {p : Position} {k : KeyCode} {x : Stroke}

/-- Keys that differ and have room in the slots are few enough for the matrix. -/
theorem length_down_le (hn : s.keysDown.Nodup) (hroom : (s.keysDown.filter fun k => !k.isModifier).length ≤ 6) :
    s.down.length ≤ Matrix.capacity := by
  have hsub : s.keysDown.filter (·.isModifier) ⊆ Modifier.all.map Modifier.key := by
    intro c hc
    obtain ⟨m, hm⟩ := KeyCode.isModifier_iff.1 (List.mem_filter.1 hc).2
    rw [KeyCode.eq_key_of_modifier? hm]
    exact List.mem_map_of_mem m.mem_all
  have hmods : (s.keysDown.filter (·.isModifier)).length ≤ 8 := ((hn.filter _).subperm hsub).length_le
  have hsum := s.keysDown.length_eq_length_filter_add (·.isModifier)
  have hlen : s.keysDown.length = s.down.length := List.length_map _
  have hcap : Matrix.capacity = 32 := rfl
  omega

theorem PlainTyping.length_down (hok : s.PlainTyping op) : (s.apply op).down.length ≤ Matrix.capacity :=
  length_down_le hok.differ hok.room

/-- Positions that are down carry different keys, so a release takes away the key of its stroke alone. -/
theorem mem_keysDown_release (hp : s.positions.Nodup) (hn : s.keysDown.Nodup) (hx : x ∈ s.down) (action : Action)
    (c : KeyCode) :
    c ∈ (s.apply (.key action ⟨x.position, false⟩)).keysDown ↔ c ∈ s.keysDown ∧ c ≠ triggerOf x.action := by
  simp only [keysDown, Session.apply, List.mem_map, List.mem_filter, bne_iff_ne]
  constructor
  · rintro ⟨y, ⟨hy, hne⟩, rfl⟩
    refine ⟨⟨y, hy, rfl⟩, fun he => hne ?_⟩
    rw [List.inj_on_of_nodup_map hn hy hx he]
  · rintro ⟨⟨y, hy, rfl⟩, hne⟩
    refine ⟨y, ⟨hy, fun he => hne ?_⟩, rfl⟩
    rw [List.inj_on_of_nodup_map hp hy hx he]

/-- As long as a key is down, the tracker leaves the report alone. -/
theorem Tracked.host_track (h : s.Tracked) {e : KeyEvent} (halt : s.Alternates (.key action e))
    (hroom : (s.apply (.key action e)).down.length ≤ Matrix.capacity)
    (hdown : (s.apply (.key action e)).down ≠ []) (t : ShiftTracker) :
    (t.track e (s.keyboard.reporter.updateMatrix e)).2 = s.keyboard.reporter.updateMatrix e := by
  have hany : KeyHost.anyKeyHeld (s.keyboard.reporter.updateMatrix e) = true := by
    rw [h.anyHeld_updateMatrix halt hroom, Bool.not_eq_true', List.isEmpty_eq_false_iff]
    exact hdown
  obtain ⟨p, _ | _⟩ := e
  · exact congrArg Prod.snd (ShiftTracker.track_release hany)
  · exact congrArg Prod.snd (ShiftTracker.track_press hany)

namespace Shown

theorem new (profile : Profile) (capacity : Nat) : (Session.new profile capacity).Shown where
  dances := rfl
  hijacked := rfl
  tidy := Slots.tidy_empty
  tracked := .refl _
  apart := List.nodup_nil
  differ := List.nodup_nil
  ne_no := List.not_mem_nil
  registered c := iff_of_false (Reporter.not_registered_new capacity c) List.not_mem_nil

/-- An operation of the run that keeps the reporter's slots tidy, and after which the registered keys are those that
are down. -/
theorem of_apply (h : s.Shown) (hok : s.PlainTyping op) (hd : (s.apply op).keyboard.remapper.dances = [])
    (hh : (s.apply op).keyboard.remapper.hijacked = {}) (hs : (s.apply op).keyboard.reporter.slots.Tidy)
    (hr : ∀ c, (s.apply op).keyboard.reporter.registered c ↔ c ∈ (s.apply op).keysDown) : (s.apply op).Shown where
  dances := hd
  hijacked := hh
  tidy := hs
  tracked := h.tracked.apply hok.alternates hok.length_down
  apart := by
    rcases op with ⟨action, p, _ | _⟩ | n | _ | n
    · exact h.apart.sublist (List.filter_sublist.map _)
    · refine List.nodup_cons.2 ⟨fun hmem => ?_, h.apart⟩
      obtain ⟨y, hy, he⟩ := List.mem_map.1 hmem
      exact hok.alternates y hy he
    · exact h.apart
    · exact h.apart
    · exact h.apart
  differ := hok.differ
  ne_no := by
    rcases op with ⟨action, p, _ | _⟩ | n | _ | n
    · exact fun hmem => h.ne_no ((List.filter_sublist.map _).subset hmem)
    · obtain ⟨k, hk, rfl⟩ := hok.plain.eq_key
      rintro (_ | ⟨_, hmem⟩)
      · exact hk rfl
      · exact h.ne_no hmem
    · exact h.ne_no
    · exact h.ne_no
    · exact h.ne_no
  registered := hr

/-- Seeing a key event registers nothing. -/
theorem updateMatrix (h : s.Shown) (e : KeyEvent) :
    (s.keyboard.reporter.updateMatrix e).slots.Tidy ∧
      ∀ c, (s.keyboard.reporter.updateMatrix e).registered c ↔ c ∈ s.keysDown :=
  ⟨(Reporter.updateMatrix_slots e _).symm ▸ h.tidy, fun c => Reporter.registered_updateMatrix.trans (h.registered c)⟩

theorem press (h : s.Shown) (hok : s.PlainTyping (.key (.key ⟨k, .empty⟩) ⟨p, true⟩)) :
    (s.apply (.key (.key ⟨k, .empty⟩) ⟨p, true⟩)).Shown := by
  have hkeys : (s.apply (.key (.key ⟨k, .empty⟩) ⟨p, true⟩)).keysDown = k :: s.keysDown := rfl
  obtain ⟨htidy, hreg⟩ := h.updateMatrix ⟨p, true⟩
  have hroom : (s.keyboard.reporter.updateMatrix ⟨p, true⟩).hasRoom k := by
    refine Reporter.hasRoom_of_few htidy hreg hok.plain.2 fun hk => ?_
    have hlen := hok.room
    rw [hkeys, List.filter_cons_of_pos (by simp [hk])] at hlen
    exact hlen
  have htrack := h.tracked.host_track hok.alternates hok.length_down (List.cons_ne_nil _ _) s.keyboard.remapper.tracker
  have hkb := processKey_plain h.dances h.hijacked hok.untriggered
  simp only [htrack, if_true] at hkb
  refine h.of_apply hok ?_ ?_ ?_ fun c => ?_ <;> rw [keyboard_apply, Keyboard.apply, hkb]
  · exact h.dances
  · exact h.hijacked
  · exact Reporter.tidy_register htidy k
  · rw [hkeys, List.mem_cons, Reporter.registered_register, hreg, and_iff_left hroom, or_comm]

theorem release (h : s.Shown) (hx : x ∈ s.down) (ha : x.action = .key ⟨k, .empty⟩)
    (hok : s.PlainTyping (.key (.key ⟨k, .empty⟩) ⟨x.position, false⟩)) :
    (s.apply (.key (.key ⟨k, .empty⟩) ⟨x.position, false⟩)).Shown := by
  have hmem (c : KeyCode) : c ∈ (s.apply (.key (.key ⟨k, .empty⟩) ⟨x.position, false⟩)).keysDown ↔
      c ∈ s.keysDown ∧ c ≠ k := by
    have hiff := mem_keysDown_release h.apart h.differ hx (.key ⟨k, .empty⟩) c
    rwa [ha] at hiff
  obtain ⟨htidy, hreg⟩ := h.updateMatrix ⟨x.position, false⟩
  have hkb := processKey_plain h.dances h.hijacked hok.untriggered
  simp only [Bool.false_eq_true, if_false] at hkb
  refine h.of_apply hok ?_ ?_ ?_ fun c => ?_ <;> rw [keyboard_apply, Keyboard.apply, hkb]
  · exact h.dances
  · exact h.hijacked
  · exact Reporter.tidy_unregister (Reporter.callsKeep_tidy.track htidy) k
  · rw [hmem, Reporter.registered_unregister (Reporter.callsKeep_tidy.track htidy)]
    refine and_congr_left fun hc => ⟨fun h' => ?_, fun hdown => ?_⟩
    · exact (hreg c).1 (ShiftTracker.registered_track htidy h')
    · -- this key is still down, so the tracker has left it registered
      have hne : (s.apply (.key (.key ⟨k, .empty⟩) ⟨x.position, false⟩)).down ≠ [] := by
        intro hnil
        have hin := (hmem c).2 ⟨hdown, hc⟩
        rw [keysDown, hnil] at hin
        exact List.not_mem_nil hin
      rw [h.tracked.host_track hok.alternates hok.length_down hne]
      exact (hreg c).2 hdown

/-- Every operation of the run keeps the registered keys those that are down. -/
theorem apply (h : s.Shown) (hok : s.PlainTyping op) : (s.apply op).Shown := by
  rcases op with ⟨action, p, _ | _⟩ | n | _ | n
  · obtain ⟨k, -, rfl⟩ := hok.plain.eq_key
    obtain ⟨x, hx, rfl, ha⟩ := hok.alternates
    exact h.release hx ha hok
  · obtain ⟨k, -, rfl⟩ := hok.plain.eq_key
    exact h.press hok
  · obtain ⟨-, hslots, hmods⟩ := Reporter.setLayer_fields n s.keyboard.reporter
    refine h.of_apply hok h.dances h.hijacked ?_ fun c => ?_
    · exact (congrArg Slots.Tidy hslots).mpr h.tidy
    · exact (Reporter.registered_congr hmods hslots).trans (h.registered c)
  · have hkb : (s.apply .finishDance).keyboard = s.keyboard := finishDance_of_nil h.dances
    refine h.of_apply hok ?_ ?_ ?_ fun c => ?_ <;> rw [hkb]
    · exact h.dances
    · exact h.hijacked
    · exact h.tidy
    · exact h.registered c
  · exact h.of_apply hok h.dances h.hijacked h.tidy h.registered

theorem shows (h : s.Shown) : s.keyboard.report.Shows s.keysDown :=
  Reporter.shows_of_registered h.tidy h.differ h.ne_no h.registered

end Shown

variable {profile : Profile} {capacity : Nat} {ops : List Op}

/-- **The report shows what is down.** In a run in which plain keys are pressed and released, no press triggers a
pair, and the keys that are down differ and have room in the slots, the report is that of the keys that are down,
after every operation. -/
theorem report_shows_keysDown (h : (Session.new profile capacity).Follows PlainTyping ops) :
    ∀ done, done <+: ops →
      ((Keyboard.new profile capacity).run done).report.Shows ((Session.new profile capacity).run done).keysDown := by
  rintro done ⟨rest, rfl⟩
  have hdone := (Follows.append_iff.1 h).1
  have hshown : ((Session.new profile capacity).run done).Shown := hdone.keeps Shown.apply (.new profile capacity)
  have hkb : ((Session.new profile capacity).run done).keyboard = (Keyboard.new profile capacity).run done :=
    keyboard_run _ done
  rw [← hkb]
  exact hshown.shows

/-- Both shift keys and six others go down; a slot is freed and taken again, and comma, which triggers a pair on the
base layer, is pressed on layer 1 and released on layer 0. Of the reports only one is received. -/
def fullHands : List Op :=
  [.key (.key ⟨.leftShift, .empty⟩) (.press ⟨0, 0⟩), .key (.key ⟨.keyA, .empty⟩) (.press ⟨1, 0⟩), .setLayer 1,
    .key (.key ⟨.comma, .empty⟩) (.press ⟨1, 1⟩), .setLayer 0, .key (.key ⟨.keyB, .empty⟩) (.press ⟨1, 2⟩),
    .key (.key ⟨.keyC, .empty⟩) (.press ⟨1, 3⟩), .receive 1, .key (.key ⟨.keyD, .empty⟩) (.press ⟨1, 4⟩),
    .key (.key ⟨.keyE, .empty⟩) (.press ⟨1, 5⟩), .key (.key ⟨.rightShift, .empty⟩) (.press ⟨0, 9⟩),
    .key (.key ⟨.keyB, .empty⟩) (.release ⟨1, 2⟩), .key (.key ⟨.leftShift, .empty⟩) (.release ⟨0, 0⟩), .finishDance,
    .key (.key ⟨.keyF, .empty⟩) (.press ⟨1, 2⟩), .key (.key ⟨.comma, .empty⟩) (.release ⟨1, 1⟩)]

theorem report_shows_fullHands :
    (Session.new ⟨0, .linux, commaTable⟩ 2).Follows PlainTyping fullHands ∧
      ((Keyboard.new ⟨0, .linux, commaTable⟩ 2).run fullHands).report.Shows
        [.keyF, .rightShift, .keyE, .keyD, .keyC, .keyA] := by
  have hf : (Session.new ⟨0, .linux, commaTable⟩ 2).Follows PlainTyping fullHands := by decide +kernel
  have hdown : ((Session.new ⟨0, .linux, commaTable⟩ 2).run fullHands).keysDown =
      [.keyF, .rightShift, .keyE, .keyD, .keyC, .keyA] := by decide +kernel
  exact ⟨hf, hdown ▸ report_shows_keysDown hf fullHands List.prefix_rfl⟩

end Session

end ShiftRemap
