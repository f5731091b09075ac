import ShiftRemap.Proofs.Filter
import ShiftRemap.Proofs.HijackRecord
import ShiftRemap.Proofs.RunInvariant

/-!
# Releases of hijacked presses

The filter takes a release over by what it has recorded at the press, not by the layer or the action that it
meets at the release. Shown here is that the record is the history: recorded for a position is the trigger of
the last hijacked press since the last release there (`Recorded`), as long as no such press finds the record
full of other positions (`FindsRoom`). From that follow both parts of `takes_release_iff`, when a release is
taken over and what it does.
-/

namespace ShiftRemap

open Keyboard Remapper

/-! ## What unregistering does to the slots -/

/-- Replacing a key that is there once at most is replacing it everywhere. -/
theorem Slots.replace_eq_map {a b : KeyCode} {l : List KeyCode} (h : l.count a ≤ 1) :
    l.replace a b = l.map fun c => if c = a then b else c := by
  induction l with
  | nil => rfl
  | cons x l ih =>
    rw [List.replace_cons, List.map_cons]
    by_cases hx : a = x
    · subst hx
      have hrest : a ∉ l := by
        rw [List.count_cons_self] at h
        exact List.count_eq_zero.1 (by omega)
      have hid : (l.map fun c => if c = a then b else c) = l := by
        refine (List.map_congr_left fun c hc => if_neg ?_).trans (List.map_id l)
        rintro rfl
        exact hrest hc
      simp [hid]
    · rw [List.count_cons_of_ne (Ne.symm hx)] at h
      simp [beq_eq_false_iff_ne.2 hx, Ne.symm hx, ih h]

namespace Reporter

variable {r : Reporter}

theorem cells_unregister (hs : r.slots.Tidy) (k : KeyCode) :
    (KeyHost.unregister k r).slots.cells = r.slots.cells.map fun c => if c = k then .no else c := by
  have hid (h : ∀ c ∈ r.slots.cells, c = k → c = .no) :
      r.slots.cells = r.slots.cells.map fun c => if c = k then .no else c := by
    refine ((List.map_congr_left fun c hc => ?_).trans (List.map_id _)).symm
    split
    · rename_i he
      exact (h c hc he).symm
    · rfl
  rw [show (KeyHost.unregister k r).slots = (r.letGo k).slots from slots_send _]
  unfold letGo
  split
  · rename_i m hm
    refine hid fun c hc he => ?_
    rw [← he, hs.plain c hc] at hm
    cases hm
  · split
    · rename_i h0
      exact hid fun c _ he => he.trans h0
    · rename_i h0
      exact Slots.replace_eq_map (hs.once k h0)

end Reporter

/-! ## What tracking and the filter do to the slots and bits -/

namespace ShiftTracker

/-- Tracking touches the left shift bit alone. -/
theorem track_fields (t : ShiftTracker) (e : KeyEvent) (r : Reporter) :
    (t.track e r).2.slots = r.slots ∧ ∀ m, m ≠ .leftShift → (t.track e r).2.mods.has m = r.mods.has m := by
  have hset : (KeyHost.setShift false r).slots = r.slots ∧
      ∀ m, m ≠ .leftShift → (KeyHost.setShift false r).mods.has m = r.mods.has m :=
    ⟨Reporter.slots_setShift false r, fun m hm => Reporter.has_setShift_of_ne hm false⟩
  unfold track
  split
  · dsimp only
    split
    · exact hset
    · exact hset
  · split
    · split
      · exact ⟨rfl, fun m _ => rfl⟩
      · dsimp only
        split
        · exact hset
        · exact ⟨rfl, fun m _ => rfl⟩
    · exact ⟨rfl, fun m _ => rfl⟩

end ShiftTracker

namespace ShiftFilter

variable {r : Reporter} {p : Pair} {held : Bool} {m : Modifier}

theorem cells_release (hs : r.slots.Tidy) :
    (release p held r).slots.cells =
      r.slots.cells.map fun c => if c = p.normal.key ∨ c = p.shifted.key then .no else c := by
  have hkeys : (KeyHost.unregister p.shifted.key (KeyHost.unregister p.normal.key r)).slots.cells =
      r.slots.cells.map fun c => if c = p.normal.key ∨ c = p.shifted.key then .no else c := by
    rw [Reporter.cells_unregister (Reporter.tidy_unregister hs _), Reporter.cells_unregister hs, List.map_map]
    refine List.map_congr_left fun c _ => ?_
    grind
  unfold release
  dsimp only
  split
  · rw [Reporter.slots_setShift]
    exact hkeys
  · exact hkeys

theorem has_release_of_ne (hm : m ≠ .leftShift) (hn : p.normal.key ≠ m.key) (hd : p.shifted.key ≠ m.key) :
    (release p held r).mods.has m = r.mods.has m := by
  have hkeys : (KeyHost.unregister p.shifted.key (KeyHost.unregister p.normal.key r)).mods.has m = r.mods.has m := by
    rw [Reporter.has_unregister, Reporter.has_unregister]
    simp [hn, hd]
  unfold release
  dsimp only
  split
  · rw [Reporter.has_setShift_of_ne hm]
    exact hkeys
  · exact hkeys

end ShiftFilter

/-! ## What the release of a hijacked press does -/

/-- The release at `p` undoes a press that was hijacked for a pair. -/
structure Keyboard.Undoes (kb : Keyboard) (action : Action) (p : Position) (pair : Pair) : Prop where
  /-- The action of the release is not unregistered. -/
  withheld : (kb.remapper.process kb.profile action (.release p) (kb.reporter.updateMatrix (.release p))).passes = false
  record (q : Position) :
    (kb.processKey action (.release p)).remapper.hijacked.get? q =
      if q = p then none else kb.remapper.hijacked.get? q
  /-- No slot keeps a key of the pair; a free slot holds no key. -/
  gone : ∀ k, k = pair.normal.key ∨ k = pair.shifted.key → k ≠ .no →
    k ∉ (kb.processKey action (.release p)).reporter.slots.cells
  /-- The slots of the pair's keys are freed, and the others are as they were. -/
  slots : (kb.processKey action (.release p)).reporter.slots.cells =
    kb.reporter.slots.cells.map fun c => if c = pair.normal.key ∨ c = pair.shifted.key then .no else c
  mods (m : Modifier) : m ≠ .leftShift → m.key ≠ pair.shifted.key →
    (kb.processKey action (.release p)).reporter.mods.has m = kb.reporter.mods.has m

namespace Keyboard

variable {kb : Keyboard} {action : Action} {p : Position} {k : KeyCode} {pair : Pair}

theorem takes_release (hk : kb.remapper.hijacked.get? p = some k) (hp : kb.profile.pairs.get? k = some pair) :
    kb.takes action (.release p) = true := by
  rw [takes, filtered_release, filter_release rfl hk hp]

theorem takes_release_left (hk : kb.remapper.hijacked.get? p = none) : kb.takes action (.release p) = false := by
  rw [takes, filtered_release, filter_release_left rfl hk]

/-- A recorded position whose key triggers a pair. -/
theorem undoes_of_recorded (hs : kb.reporter.slots.Tidy) (hn : pair.normal.key.isModifier = false)
    (hk : kb.remapper.hijacked.get? p = some k) (hp : kb.profile.pairs.get? k = some pair) :
    kb.Undoes action p pair := by
  have hf : kb.remapper.filtered kb.profile action (.release p) (kb.reporter.updateMatrix (.release p)) = _ :=
    filter_release rfl hk hp
  have hkb := (processKey_of_taken hf).2
  obtain ⟨hslots, hmods⟩ :=
    ShiftTracker.track_fields kb.remapper.tracker (.release p) (kb.reporter.updateMatrix (.release p))
  rw [Reporter.updateMatrix_slots] at hslots
  rw [Reporter.updateMatrix_mods] at hmods
  have hcells : (kb.processKey action (.release p)).reporter.slots.cells =
      kb.reporter.slots.cells.map fun c => if c = pair.normal.key ∨ c = pair.shifted.key then .no else c := by
    rw [hkb, ← hslots]
    exact ShiftFilter.cells_release (hslots.symm ▸ hs)
  constructor
  · rw [process_eq, hf]
    rfl
  · intro q
    rw [hkb]
    exact HijackedKeys.get?_erase
  · intro j hj h0 hmem
    rw [hcells] at hmem
    obtain ⟨c, _, hc⟩ := List.mem_map.1 hmem
    split at hc
    · exact h0 hc.symm
    · rename_i hne
      exact hne (hc ▸ hj)
  · exact hcells
  · intro m hm hd
    have hne : pair.normal.key ≠ m.key := by
      intro h
      rw [h, KeyCode.isModifier_iff.2 ⟨m, KeyCode.modifier?_key m⟩] at hn
      cases hn
    rw [hkb]
    exact (ShiftFilter.has_release_of_ne hm hne (Ne.symm hd)).trans (hmods m hm)

end Keyboard

/-! ## The record is the history -/

namespace Session

/-- The last hijacked press at a position since the last release there. -/
def lastHijacked? (s : Session) (p : Position) : Option Stroke := s.down.find? fun x => x.position == p && x.hijacked

/-- A press that is to be hijacked finds room in the record: the other positions do not fill it. -/
def FindsRoom (s : Session) : Op → Prop
  | .key action ⟨p, true⟩ =>
    s.keyboard.takes action (.press p) = true →
      (s.keyboard.remapper.hijacked.erase p).entries.length < HijackedKeys.capacity
  | _ => True

instance (s : Session) (op : Op) : Decidable (s.FindsRoom op) :=
  match op with
  | .key _ ⟨_, true⟩ => inferInstanceAs (Decidable (_ → _))
  | .key _ ⟨_, false⟩ | .setLayer _ | .finishDance | .receive _ => .isTrue trivial

/-- Recorded is the trigger of the last hijacked press of each position, and it triggers a pair. -/
structure Recorded (s : Session) : Prop where
  get? (p : Position) : s.keyboard.remapper.hijacked.get? p = (s.lastHijacked? p).map (triggerOf ·.action)
  triggers : ∀ x ∈ s.down, x.hijacked = true → (s.keyboard.profile.pairs.get? (triggerOf x.action)).isSome = true

variable {s : Session} {action : Action} {p q : Position}

theorem lastHijacked?_press :
    (s.apply (.key action ⟨p, true⟩)).lastHijacked? q =
      if q = p ∧ s.keyboard.takes action (.press p) = true then
        some ⟨p, action, s.keyboard.takes action (.press p)⟩
      else s.lastHijacked? q := by
  show List.find? _ (_ :: s.down) = _
  rw [List.find?_cons]
  dsimp only
  split
  · rename_i h
    rw [if_pos (by grind)]
  · rename_i h
    rw [if_neg (by grind)]
    rfl

theorem lastHijacked?_release :
    (s.apply (.key action ⟨p, false⟩)).lastHijacked? q = if q = p then none else s.lastHijacked? q := by
  show List.find? _ (List.filter _ s.down) = _
  rw [List.find?_filter]
  split
  · rename_i h
    subst h
    rw [List.find?_eq_none]
    intro x _
    grind
  · rename_i h
    congr 1
    funext x
    grind

theorem hijacked_apply_release :
    (s.apply (.key action ⟨p, false⟩)).keyboard.remapper.hijacked = s.keyboard.remapper.hijacked.erase p :=
  hijacked_process_release ..

/-- A press that finds room is recorded if it is hijacked. -/
theorem get?_apply_press (hroom : s.FindsRoom (.key action ⟨p, true⟩)) :
    (s.apply (.key action ⟨p, true⟩)).keyboard.remapper.hijacked.get? q =
      if q = p ∧ s.keyboard.takes action (.press p) = true then some (triggerOf action)
      else s.keyboard.remapper.hijacked.get? q := by
  have hrecord : (s.apply (.key action ⟨p, true⟩)).keyboard.remapper.hijacked =
      if s.keyboard.takes action (.press p) then
        (s.keyboard.remapper.hijacked.insert? p (triggerOf action)).getD s.keyboard.remapper.hijacked
      else s.keyboard.remapper.hijacked := hijacked_process_press ..
  rw [hrecord]
  split
  · rename_i htaken
    obtain ⟨record, hins⟩ := HijackedKeys.exists_insert? (hroom htaken) (triggerOf action)
    rw [hins, Option.getD_some, HijackedKeys.get?_insert? hins]
    simp only [htaken, and_true]
  · rename_i hleft
    simp only [hleft, and_false, if_false, Bool.false_eq_true]

theorem Recorded.press (h : s.Recorded) (hroom : s.FindsRoom (.key action ⟨p, true⟩)) :
    (s.apply (.key action ⟨p, true⟩)).Recorded where
  get? q := by
    rw [get?_apply_press hroom, lastHijacked?_press, h.get? q]
    split <;> rfl
  triggers x hx hhij := by
    rw [profile_apply]
    rcases List.mem_cons.1 hx with rfl | hx
    · exact (takes_press_iff.1 hhij).2
    · exact h.triggers x hx hhij

theorem Recorded.release (h : s.Recorded) : (s.apply (.key action ⟨p, false⟩)).Recorded where
  get? q := by
    rw [hijacked_apply_release, HijackedKeys.get?_erase, lastHijacked?_release, h.get? q]
    split <;> rfl
  triggers x hx hhij := by
    rw [profile_apply]
    exact h.triggers x (List.mem_filter.1 hx).1 hhij

/-- One operation. -/
theorem Recorded.apply {op : Op} (h : s.Recorded) (hroom : s.FindsRoom op) : (s.apply op).Recorded := by
  rcases op with ⟨action, p, _ | _⟩ | n | _ | n
  · exact h.release
  · exact h.press hroom
  · exact ⟨h.get?, h.triggers⟩
  · exact ⟨h.get?, h.triggers⟩
  · exact ⟨h.get?, h.triggers⟩

theorem recorded_run {profile : Profile} {capacity : Nat} {ops : List Op}
    (hroom : (Session.new profile capacity).Follows FindsRoom ops) :
    ((Session.new profile capacity).run ops).Recorded :=
  hroom.keeps Recorded.apply ⟨fun _ => rfl, fun _ hx => absurd hx List.not_mem_nil⟩

end Session

/-- **A release is hijacked exactly when its press was.** Whatever the events are and however the layers change, as
long as every hijacked press finds room in the record: the filter takes a release over if and only if a press at
its position since the last release there was hijacked. With the pair that the last such press triggered, the
release then keeps its own action from being unregistered, erases its position and no other from the record,
frees the slots of the pair's keys and no others, and changes no modifier bit but left shift and that of the
pair's shifted key. -/
theorem Keyboard.takes_release_iff {profile : Profile} (ht : profile.pairs.Built) {capacity : Nat} {ops : List Op}
    (hroom : (Session.new profile capacity).Follows Session.FindsRoom ops) :
    let s := (Session.new profile capacity).run ops
    ∀ action p,
      (s.keyboard.takes action (.release p) = true ↔ ∃ x ∈ s.down, x.position = p ∧ x.hijacked = true) ∧
      ∀ x, s.lastHijacked? p = some x →
        ∃ pair, profile.pairs.get? (triggerOf x.action) = some pair ∧ s.keyboard.Undoes action p pair := by
  intro s action p
  have hrec : s.Recorded := Session.recorded_run hroom
  have hprofile : s.keyboard.profile = profile := Session.profile_run ..
  cases hlast : s.lastHijacked? p with
  | none =>
    have hk : s.keyboard.remapper.hijacked.get? p = none := by rw [hrec.get? p, hlast]; rfl
    refine ⟨?_, nofun⟩
    rw [takes_release_left hk]
    have hnone := List.find?_eq_none.1 hlast
    exact ⟨nofun, fun ⟨x, hx, hp, hh⟩ => absurd (by simp [hp, hh]) (hnone x hx)⟩
  | some x =>
    have hk : s.keyboard.remapper.hijacked.get? p = some (triggerOf x.action) := by rw [hrec.get? p, hlast]; rfl
    have hx : x ∈ s.down := List.mem_of_find?_eq_some hlast
    have hfound : x.position = p ∧ x.hijacked = true := by simpa using List.find?_some hlast
    obtain ⟨pair, hpair⟩ := Option.isSome_iff_exists.1 (hrec.triggers x hx hfound.2)
    refine ⟨⟨fun _ => ⟨x, hx, hfound⟩, fun _ => takes_release hk hpair⟩, ?_⟩
    rintro _ ⟨⟩
    rw [hprofile] at hpair
    have hn : pair.normal.key.isModifier = false := by
      have hcan := ht.canTrigger pair (List.mem_of_find?_eq_some hpair)
      rw [KeyCode.canTrigger, Bool.and_eq_true] at hcan
      simpa [Pair.trigger] using hcan.2
    have htidy : s.keyboard.reporter.slots.Tidy := by
      rw [Session.keyboard_run]
      exact tidy_run ..
    exact ⟨pair, hpair, undoes_of_recorded htidy hn hk (hprofile.symm ▸ hpair)⟩

/-- Comma is hijacked under shift, and its position pressed again as another key on another layer. -/
def Keyboard.commaThenA : List Op :=
  [.key (.key ⟨.leftShift, .empty⟩) (.press ⟨0, 0⟩), .key (.key ⟨.comma, .empty⟩) (.press ⟨0, 1⟩), .setLayer 1,
    .key (.key ⟨.keyA, .empty⟩) (.press ⟨0, 1⟩)]

theorem Keyboard.takes_release_commaThenA :
    (Session.new ⟨0, .linux, commaTable⟩ 2).Follows Session.FindsRoom commaThenA ∧
      let kb := ((Session.new ⟨0, .linux, commaTable⟩ 2).run commaThenA).keyboard
      kb.takes .none (.release ⟨0, 1⟩) = true ∧ kb.Undoes .none ⟨0, 1⟩ ⟨⟨.comma, .empty⟩, ⟨.semicolon, .empty⟩⟩ ∧
        kb.takes .none (.release ⟨0, 0⟩) ≠ true := by
  have hlist : PairTable.ofList commaTable.pairs = .ok commaTable := rfl
  have hroom : (Session.new ⟨0, .linux, commaTable⟩ 2).Follows Session.FindsRoom commaThenA := by decide +kernel
  have hall := takes_release_iff (PairTable.built_of_ofList hlist) hroom .none
  obtain ⟨pair, hpair, hundoes⟩ :=
    (hall ⟨0, 1⟩).2 ⟨⟨0, 1⟩, .key ⟨.comma, .empty⟩, true⟩ (by decide +kernel)
  cases hpair
  exact ⟨hroom, (hall ⟨0, 1⟩).1.2 (by decide +kernel), hundoes, mt (hall ⟨0, 0⟩).1.1 (by decide +kernel)⟩

end ShiftRemap
