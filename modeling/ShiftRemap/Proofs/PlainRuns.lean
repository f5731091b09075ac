import ShiftRemap.Proofs.Accepted
import ShiftRemap.Proofs.NoStuckKeys

/-!
# Plain runs

Runs of a keyboard on which one position is bound to left shift and every other one to a plain key, with the
pairs on its only layer (`Session.PlainStep`). In such a run no dance begins and no layer changes, the matrix
records every key that is down, and exactly the presses of triggers are hijacked (`Session.Plain`).

All that matters for the choice between the chords of a pair are two bits, whether left shift is registered
and whether shift is tracked (`ShiftBits`). What an event makes of them depends on them, on its key, and on
whether it leaves the matrix idle: `Plain.bits_press` and `Plain.bits_release`.
-/

namespace ShiftRemap

open Keyboard Remapper

/-! ## The two bits -/

/-- What is known of shift between two events. -/
@[ext] structure ShiftBits where
  /-- Left shift is registered. -/
  bit : Bool
  /-- Shift is tracked as held. -/
  held : Bool
  deriving DecidableEq

namespace ShiftBits

/-- A key is pressed: the trigger of a pair, left shift, or any other key. -/
def press (pair? : Option Pair) (isShift : Bool) (b : ShiftBits) : ShiftBits :=
  let held := b.held || b.bit
  match pair? with
  | some p => ⟨(p.output held).isShifted, held⟩
  | none => ⟨b.bit || isShift, held⟩

/-- A key is released, perhaps the last one that was down. -/
def release (pair? : Option Pair) (isShift last : Bool) (b : ShiftBits) : ShiftBits :=
  if last then ⟨false, false⟩
  else
    let held := b.held && !b.bit
    match pair? with
    | some p => ⟨if p.restoresShift then held else b.bit, held⟩
    | none => ⟨b.bit && !isShift, held⟩

variable {pair? : Option Pair} {isShift : Bool} {b : ShiftBits}

@[simp] theorem held_press : (b.press pair? isShift).held = (b.held || b.bit) := by
  unfold press
  split <;> rfl

@[simp] theorem held_release : (b.release pair? isShift false).held = (b.held && !b.bit) := by
  unfold release
  cases pair? <;> rfl

end ShiftBits

/-- The two bits of a session. -/
def Session.bits (s : Session) : ShiftBits := ⟨s.keyboard.reporter.mods.has .leftShift, s.keyboard.shiftHeld⟩

/-! ## The runs -/

/-- The action of left shift. -/
def Action.shift : Action := .key ⟨.leftShift, .empty⟩

/-- The profile has its pairs on layer 0, and they are those of accepted settings. -/
structure Profile.Basic (profile : Profile) : Prop where
  baseLayer : profile.baseLayer = 0
  typable : ∀ p ∈ profile.pairs.pairs, p.Typable
  nodup : (profile.pairs.pairs.map Pair.trigger).Nodup

/-- Left shift triggers no pair. -/
theorem Profile.Basic.get?_shift {profile : Profile} (h : profile.Basic) :
    profile.pairs.get? (triggerOf .shift) = none := by
  rw [PairTable.get?_eq_none_iff]
  intro p hp he
  have hc := (h.typable p hp).normal
  rw [show p.normal.key = .leftShift from he] at hc
  cases hc

theorem Settings.Accepted.basic {s : Settings} {profile : Profile} (h : s.Accepted profile) (hb : s.baseLayer = 0) :
    profile.Basic := ⟨h.baseLayer.trans hb, h.typable, h.nodup⟩

/-- What a position is bound to if left shift is at `shift`. -/
def BoundTo (shift p : Position) (action : Action) : Prop :=
  if p = shift then action = .shift else ∃ k : KeyCode, k.isModifier = false ∧ action = .key ⟨k, .empty⟩

theorem BoundTo.eq_key {shift p : Position} {action : Action} (h : BoundTo shift p action) :
    ∃ k, action = .key ⟨k, .empty⟩ ∧ (k = .leftShift ↔ p = shift) := by
  unfold BoundTo at h
  split at h
  · rename_i he
    exact ⟨_, h, ⟨fun _ => he, fun _ => rfl⟩⟩
  · rename_i hne
    obtain ⟨k, hk, rfl⟩ := h
    refine ⟨k, rfl, ⟨fun he => ?_, fun he => absurd he hne⟩⟩
    rw [he] at hk
    cases hk

theorem comboKeys_empty : KeyHost.comboKeys .empty = [] := by decide

theorem registerChord_plain {σ : Type} [KeyHost σ] (k : KeyCode) (h : σ) :
    KeyHost.registerChord ⟨k, .empty⟩ h = KeyHost.register k h := by
  rw [KeyHost.registerChord, comboKeys_empty]
  rfl

theorem unregisterChord_plain {σ : Type} [KeyHost σ] (k : KeyCode) (h : σ) :
    KeyHost.unregisterChord ⟨k, .empty⟩ h = KeyHost.unregister k h := by
  rw [KeyHost.unregisterChord, comboKeys_empty]
  rfl

/-- What an event does to the host once the tracker has seen it. -/
def struck {σ : Type} [KeyHost σ] (table : PairTable) (action : Action) (e : KeyEvent) (held : Bool) (h : σ) : σ :=
  match table.get? (triggerOf action) with
  | some p => if e.pressed then ShiftFilter.press p held h else ShiftFilter.release p held h
  | none =>
    match action with
    | .key c => if e.pressed then KeyHost.registerChord c h else KeyHost.unregisterChord c h
    | _ => h

/-- The stroke is one of a key that triggers a pair. -/
def Stroke.isTrigger (table : PairTable) (k : Stroke) : Bool := (table.get? (triggerOf k.action)).isSome

section Struck

variable {table : PairTable} {k : KeyCode} (ht : ∀ p ∈ table.pairs, p.Typable) (p : Position) (held : Bool)
  (r : Reporter)
include ht

theorem has_struck_press :
    (struck table (.key ⟨k, .empty⟩) (.press p) held r).mods.has .leftShift =
      match table.get? k with
      | some pair => (pair.output held).isShifted
      | none => r.mods.has .leftShift || decide (k = .leftShift) := by
  have htrig : triggerOf (.key ⟨k, .empty⟩) = k := rfl
  rw [struck, htrig]
  cases hp : table.get? k with
  | some pair =>
    have hout := (ht pair (PairTable.mem_of_get? hp).1).output held
    exact ShiftFilter.has_press (KeyCode.canTrigger_iff.1 hout).2
  | none =>
    simp only [KeyEvent.press, if_true, registerChord_plain]
    exact Reporter.has_register .leftShift

theorem has_struck_release :
    (struck table (.key ⟨k, .empty⟩) (.release p) held r).mods.has .leftShift =
      match table.get? k with
      | some pair => if pair.restoresShift then held else r.mods.has .leftShift
      | none => r.mods.has .leftShift && !decide (k = .leftShift) := by
  have htrig : triggerOf (.key ⟨k, .empty⟩) = k := rfl
  rw [struck, htrig]
  cases hp : table.get? k with
  | some pair =>
    have htype := ht pair (PairTable.mem_of_get? hp).1
    exact ShiftFilter.has_release (KeyCode.canTrigger_iff.1 htype.normal).2 (KeyCode.canTrigger_iff.1 htype.shifted).2
  | none =>
    simp only [KeyEvent.release, Bool.false_eq_true, if_false, unregisterChord_plain]
    exact Reporter.has_unregister .leftShift

end Struck

theorem KeyCallsKeep.struck {σ : Type} [KeyHost σ] {P : σ → Prop} (hP : KeyCallsKeep P) {table : PairTable}
    {action : Action} {e : KeyEvent} {held : Bool} {h : σ} (hh : P h) : P (struck table action e held h) := by
  unfold ShiftRemap.struck
  split
  · split
    · exact hP.press hh
    · exact hP.release hh
  · split
    · split
      · exact hP.registerChord hh
      · exact hP.unregisterChord hh
    · exact hh

namespace Session

/-- An operation of a plain run. -/
structure PlainStep (shift : Position) (s : Session) (op : Op) : Prop where
  alternates : s.Alternates op
  bound : ∀ action e, op = .key action e → BoundTo shift e.position action
  layers : ∀ n, op ≠ .setLayer n
  room : (s.apply op).down.length ≤ Matrix.capacity
  triggers : ((s.apply op).down.filter (·.isTrigger s.keyboard.profile.pairs)).length ≤ HijackedKeys.capacity

/-- What holds throughout a plain run. -/
structure Plain (shift : Position) (s : Session) : Prop where
  basic : s.keyboard.profile.Basic
  accounted : s.Accounted
  tracked : s.Tracked
  layers : s.keyboard.reporter.layers = .none
  dances : s.keyboard.remapper.dances = []
  bound : ∀ k ∈ s.down, BoundTo shift k.position k.action
  hijacked : ∀ k ∈ s.down, k.hijacked = k.isTrigger s.keyboard.profile.pairs

namespace Plain

variable {shift p : Position} {s : Session} {op : Op} {action : Action} {pair : Pair} {k : Stroke}

theorem new {profile : Profile} (h : profile.Basic) (capacity : Nat) : (Session.new profile capacity).Plain shift where
  basic := h
  accounted := .new profile capacity
  tracked := .refl _
  layers := rfl
  dances := rfl
  bound _ hk := absurd hk List.not_mem_nil
  hijacked _ hk := absurd hk List.not_mem_nil

/-! ### What an event does -/

theorem triggered?_eq (h : s.Plain shift) (e : KeyEvent) (action : Action) :
    triggered? s.keyboard.profile action (s.keyboard.reporter.updateMatrix e) =
      s.keyboard.profile.pairs.get? (triggerOf action) := by
  have hl : KeyHost.highestLayer (s.keyboard.reporter.updateMatrix e) = s.keyboard.profile.baseLayer := by
    rw [h.basic.baseLayer]
    show (s.keyboard.reporter.updateMatrix e).layers.highest = 0
    rw [Reporter.updateMatrix_layers, h.layers]
    rfl
  rw [triggered?, hl]
  simp

theorem filtered_press (h : s.Plain shift) (action : Action) (p : Position) :
    s.keyboard.remapper.filtered s.keyboard.profile action (.press p) (s.keyboard.reporter.updateMatrix (.press p)) =
      s.keyboard.remapper.filter s.keyboard.profile action (.press p)
        (s.keyboard.reporter.updateMatrix (.press p)) := by
  rw [filtered, prepare_of_nil h.dances]

/-- Exactly the presses of triggers are hijacked. -/
theorem takes_press (h : s.Plain shift) (action : Action) (p : Position) :
    s.keyboard.takes action (.press p) = (s.keyboard.profile.pairs.get? (triggerOf action)).isSome := by
  rw [takes, h.filtered_press]
  cases hp : s.keyboard.profile.pairs.get? (triggerOf action) with
  | some pair => rw [filter_press rfl (by rw [h.triggered?_eq]; exact hp)]; rfl
  | none => rw [filter_press_left rfl (by rw [h.triggered?_eq]; exact hp)]; rfl

theorem apply_hijacked (h : s.Plain shift) (op : Op) :
    ∀ k ∈ (s.apply op).down, k.hijacked = k.isTrigger s.keyboard.profile.pairs := by
  intro k hk
  rcases op with ⟨action, p, _ | _⟩ | n | _ | n
  · exact h.hijacked k (List.mem_filter.1 hk).1
  · rcases List.mem_cons.1 hk with rfl | hk
    · exact h.takes_press action p
    · exact h.hijacked k hk
  · exact h.hijacked k hk
  · exact h.hijacked k hk
  · exact h.hijacked k hk

theorem sparing (h : s.Plain shift) (hok : s.PlainStep shift op) : s.Sparing op := by
  refine ⟨hok.alternates, ?_⟩
  rw [List.filter_congr (h.apply_hijacked op)]
  exact hok.triggers

theorem hijacked_lt (h : s.Plain shift) (hok : s.PlainStep shift (.key action ⟨p, true⟩))
    (hpair : s.keyboard.profile.pairs.get? (triggerOf action) = some pair) :
    (s.down.filter (·.hijacked)).length < HijackedKeys.capacity := by
  have hlen := (h.sparing hok).2
  simp only [Session.apply, h.takes_press, hpair, Option.isSome_some, List.filter_cons, if_true,
    List.length_cons] at hlen
  exact hlen

/-- An event passes the tracker. Then it is done by the filter if its key is a trigger, and as usual if not. -/
theorem processKey_eq {e : KeyEvent} (h : s.Plain shift) (hok : s.PlainStep shift (.key action e)) :
    ∃ hijacked, s.keyboard.processKey action e =
      let t := s.keyboard.remapper.tracker.track e (s.keyboard.reporter.updateMatrix e)
      { s.keyboard with
        remapper := { s.keyboard.remapper with tracker := t.1, hijacked }
        reporter := struck s.keyboard.profile.pairs action e t.1.shiftHeld t.2 } := by
  obtain ⟨k, rfl, _⟩ := (hok.bound action e rfl).eq_key
  obtain ⟨p, pressed⟩ := e
  cases hpair : s.keyboard.profile.pairs.get? k with
  | some pair =>
    have hpair' : s.keyboard.profile.pairs.get? (triggerOf (.key ⟨k, .empty⟩)) = some pair := hpair
    cases pressed with
    | true =>
      have ht := (h.accounted.owned.updateMatrix (.press p)).track (.press p)
      have hroom (g : Reporter) := ht.remember_eq hok.alternates (h.hijacked_lt hok hpair') k g
      have hf := (h.filtered_press (.key ⟨k, .empty⟩) p).trans
        (filter_press rfl (by rw [h.triggered?_eq]; exact hpair'))
      refine ⟨⟨s.keyboard.remapper.hijacked.entries ++ [(p, k)]⟩,
        (processKey_of_taken (hf.trans (congrArg (Prod.mk true) (hroom _)))).2.trans ?_⟩
      simp only [struck, hpair', if_true]
      rfl
    | false =>
      obtain ⟨x, hx, rfl, ha⟩ := hok.alternates
      have hj : x.hijacked = true := by rw [h.hijacked x hx, Stroke.isTrigger, ha, hpair']; rfl
      rw [← ha] at hpair' ⊢
      refine ⟨s.keyboard.remapper.hijacked.erase x.position,
        (h.accounted.owned.processKey_release hx hj hpair').trans ?_⟩
      simp only [struck, hpair', Bool.false_eq_true, if_false]
      rfl
  | none =>
    have hpair' : s.keyboard.profile.pairs.get? (triggerOf (.key ⟨k, .empty⟩)) = none := hpair
    cases pressed with
    | true =>
      have hf := (h.filtered_press (.key ⟨k, .empty⟩) p).trans
        (filter_press_left rfl (by rw [h.triggered?_eq]; exact hpair'))
      refine ⟨s.keyboard.remapper.hijacked, (processKey_of_left hf).2.trans ?_⟩
      simp only [struck, hpair']
      rfl
    | false =>
      obtain ⟨x, hx, rfl, ha⟩ := hok.alternates
      have hj : x.hijacked = false := by rw [h.hijacked x hx, Stroke.isTrigger, ha, hpair']; rfl
      have he := h.accounted.owned.processKey_release_left hx hj
      rw [ha] at he
      refine ⟨s.keyboard.remapper.hijacked, he.trans ?_⟩
      simp only [struck, hpair']
      rfl

/-- Every operation of a plain run keeps it plain. -/
theorem apply (h : s.Plain shift) (hok : s.PlainStep shift op) : (s.apply op).Plain shift where
  basic := by rw [profile_apply]; exact h.basic
  accounted := h.accounted.apply (h.sparing hok)
  tracked := h.tracked.apply hok.alternates hok.room
  layers := by
    rcases op with ⟨action, e⟩ | n | _ | n
    · obtain ⟨hijacked, he⟩ := h.processKey_eq hok
      rw [keyboard_apply, Keyboard.apply, he]
      exact (Reporter.callsKeep_layers _).struck ((Reporter.callsKeep_layers _).track
        ((Reporter.updateMatrix_layers ..).trans h.layers))
    · exact absurd rfl (hok.layers n)
    · rw [show (s.apply .finishDance).keyboard = s.keyboard from finishDance_of_nil h.dances]
      exact h.layers
    · exact h.layers
  dances := by
    rcases op with ⟨action, e⟩ | n | _ | n
    · obtain ⟨hijacked, he⟩ := h.processKey_eq hok
      rw [keyboard_apply, Keyboard.apply, he]
      exact h.dances
    · exact absurd rfl (hok.layers n)
    · rw [show (s.apply .finishDance).keyboard = s.keyboard from finishDance_of_nil h.dances]
      exact h.dances
    · exact h.dances
  bound := by
    rcases op with ⟨action, p, _ | _⟩ | n | _ | n
    · exact fun k hk => h.bound k (List.mem_filter.1 hk).1
    · intro k hk
      rcases List.mem_cons.1 hk with rfl | hk
      · exact hok.bound action _ rfl
      · exact h.bound k hk
    · exact h.bound
    · exact h.bound
    · exact h.bound
  hijacked := by rw [profile_apply]; exact h.apply_hijacked op

/-! ### What an event does to the two bits -/

theorem anyHeld_eq {e : KeyEvent} (h : s.Plain shift) (hok : s.PlainStep shift (.key action e)) :
    KeyHost.anyKeyHeld (s.keyboard.reporter.updateMatrix e) = !(s.apply (.key action e)).down.isEmpty :=
  h.tracked.anyHeld_updateMatrix hok.alternates hok.room

theorem bits_key {e : KeyEvent} (h : s.Plain shift) (hok : s.PlainStep shift (.key action e)) :
    (s.apply (.key action e)).bits =
      let t := s.keyboard.remapper.tracker.track e (s.keyboard.reporter.updateMatrix e)
      ⟨(struck s.keyboard.profile.pairs action e t.1.shiftHeld t.2).mods.has .leftShift, t.1.shiftHeld⟩ := by
  obtain ⟨hijacked, he⟩ := h.processKey_eq hok
  rw [Session.bits, keyboard_apply, Keyboard.apply, he]
  rfl

/-- A press sets the tracked flag where left shift is registered. -/
theorem track_press (h : s.Plain shift) (hok : s.PlainStep shift (.key action ⟨p, true⟩)) :
    s.keyboard.remapper.tracker.track ⟨p, true⟩ (s.keyboard.reporter.updateMatrix ⟨p, true⟩) =
      (⟨s.bits.held || s.bits.bit⟩, s.keyboard.reporter.updateMatrix ⟨p, true⟩) := by
  have hany : KeyHost.anyKeyHeld (s.keyboard.reporter.updateMatrix ⟨p, true⟩) = true := h.anyHeld_eq hok
  have hmods : KeyHost.modifiers (s.keyboard.reporter.updateMatrix ⟨p, true⟩) = s.keyboard.reporter.mods :=
    Reporter.updateMatrix_mods ..
  have ht := ShiftTracker.track_press (t := s.keyboard.remapper.tracker) (p := p) hany
  rwa [hmods] at ht

/-- A release that leaves a key down clears the tracked flag where left shift is registered. -/
theorem track_release (h : s.Plain shift) (hok : s.PlainStep shift (.key action ⟨p, false⟩))
    (hdown : (s.apply (.key action ⟨p, false⟩)).down.isEmpty = false) :
    s.keyboard.remapper.tracker.track ⟨p, false⟩ (s.keyboard.reporter.updateMatrix ⟨p, false⟩) =
      (⟨s.bits.held && !s.bits.bit⟩, s.keyboard.reporter.updateMatrix ⟨p, false⟩) := by
  have hany : KeyHost.anyKeyHeld (s.keyboard.reporter.updateMatrix ⟨p, false⟩) = true := by
    rw [h.anyHeld_eq hok, hdown]
    rfl
  have hmods : KeyHost.modifiers (s.keyboard.reporter.updateMatrix ⟨p, false⟩) = s.keyboard.reporter.mods :=
    Reporter.updateMatrix_mods ..
  have ht := ShiftTracker.track_release (t := s.keyboard.remapper.tracker) (p := p) hany
  rwa [hmods] at ht

theorem bits_press (h : s.Plain shift) (hok : s.PlainStep shift (.key action ⟨p, true⟩)) :
    (s.apply (.key action ⟨p, true⟩)).bits =
      s.bits.press (s.keyboard.profile.pairs.get? (triggerOf action)) (decide (p = shift)) := by
  obtain ⟨k, rfl, hk⟩ := (hok.bound action _ rfl).eq_key
  have htrig : triggerOf (.key ⟨k, .empty⟩) = k := rfl
  rw [h.bits_key hok, h.track_press hok, htrig]
  have hbit := has_struck_press (k := k) h.basic.typable p (s.bits.held || s.bits.bit)
    (s.keyboard.reporter.updateMatrix ⟨p, true⟩)
  simp only [hk, Reporter.updateMatrix_mods] at hbit
  refine ShiftBits.ext (hbit.trans ?_) ?_
  · cases s.keyboard.profile.pairs.get? k <;> rfl
  · cases s.keyboard.profile.pairs.get? k <;> rfl

theorem bits_release (h : s.Plain shift) (hok : s.PlainStep shift (.key action ⟨p, false⟩)) :
    (s.apply (.key action ⟨p, false⟩)).bits =
      s.bits.release (s.keyboard.profile.pairs.get? (triggerOf action)) (decide (p = shift))
        (s.apply (.key action ⟨p, false⟩)).down.isEmpty := by
  cases hdown : (s.apply (.key action ⟨p, false⟩)).down.isEmpty with
  | true =>
    -- the matrix is idle by now, so shift was cleared
    have hclear := (h.accounted.apply (h.sparing hok)).cleared (List.isEmpty_iff.1 hdown)
    rw [Session.bits, hclear.1]
    rw [show KeyCode.leftShift = Modifier.leftShift.key from rfl, Reporter.registered_key] at hclear
    rw [Bool.eq_false_iff.2 hclear.2]
    rfl
  | false =>
    obtain ⟨k, rfl, hk⟩ := (hok.bound action _ rfl).eq_key
    have htrig : triggerOf (.key ⟨k, .empty⟩) = k := rfl
    rw [h.bits_key hok, h.track_release hok hdown, htrig]
    have hbit := has_struck_release (k := k) h.basic.typable p (s.bits.held && !s.bits.bit)
      (s.keyboard.reporter.updateMatrix ⟨p, false⟩)
    simp only [hk, Reporter.updateMatrix_mods] at hbit
    refine ShiftBits.ext (hbit.trans ?_) ?_
    · cases s.keyboard.profile.pairs.get? k <;> rfl
    · cases s.keyboard.profile.pairs.get? k <;> rfl

end Plain

/-! ### Sessions given by what is down -/

/-- The keys that are down, newest first, with their actions. -/
def held (s : Session) : List (Position × Action) := s.down.map fun k => (k.position, k.action)

/-- An operation that leaves few keys down leaves room in every table. -/
theorem PlainStep.of_few {shift : Position} {s : Session} {op : Op} (halt : s.Alternates op)
    (hb : ∀ action e, op = .key action e → BoundTo shift e.position action) (hl : ∀ n, op ≠ .setLayer n)
    (hlen : (s.apply op).down.length ≤ HijackedKeys.capacity) : s.PlainStep shift op where
  alternates := halt
  bound := hb
  layers := hl
  room := Nat.le_trans hlen (by decide)
  triggers := Nat.le_trans (List.length_filter_le ..) hlen

/-- A session of a plain run, with the keys that are down and its two bits. -/
structure At (shift : Position) (profile : Profile) (held : List (Position × Action)) (b : ShiftBits)
    (s : Session) : Prop where
  plain : s.Plain shift
  profile : s.keyboard.profile = profile
  held : s.held = held
  bits : s.bits = b

namespace At

variable {shift p : Position} {profile : Profile} {held : List (Position × Action)} {b : ShiftBits} {s : Session}
  {action : Action}

theorem new (h : profile.Basic) (shift : Position) (capacity : Nat) :
    (Session.new profile capacity).At shift profile [] ⟨false, false⟩ where
  plain := .new h capacity
  profile := rfl
  held := rfl
  bits := by
    have hbit : (Session.new profile capacity).keyboard.reporter.mods.has .leftShift = false :=
      Modifiers.has_empty .leftShift
    rw [Session.bits, hbit]
    rfl

theorem basic (h : s.At shift profile held b) : profile.Basic := h.profile ▸ h.plain.basic

/-- The strokes that are down, from the keys that are. -/
theorem mem_held (h : s.At shift profile held b) {k : Stroke} (hk : k ∈ s.down) : (k.position, k.action) ∈ held :=
  h.held ▸ List.mem_map_of_mem hk

theorem isDown_iff (h : s.At shift profile held b) : s.IsDown p ↔ p ∈ held.map Prod.fst := by
  rw [← h.held, Session.held, List.map_map, List.mem_map]
  rfl

theorem press (h : s.At shift profile held b) (hp : ∀ x ∈ held, x.1 ≠ p) (hb : BoundTo shift p action)
    (hlen : held.length < HijackedKeys.capacity) :
    s.PlainStep shift (.key action ⟨p, true⟩) ∧
      (s.apply (.key action ⟨p, true⟩)).At shift profile ((p, action) :: held)
        (b.press (profile.pairs.get? (triggerOf action)) (decide (p = shift))) := by
  obtain ⟨hplain, rfl, rfl, rfl⟩ := h
  have halt : s.Alternates (.key action ⟨p, true⟩) := fun k hk => hp _ (List.mem_map_of_mem hk)
  rw [Session.held, List.length_map] at hlen
  have hok := PlainStep.of_few halt (by rintro _ _ ⟨⟩; exact hb) nofun hlen
  exact ⟨hok, hplain.apply hok, rfl, rfl, hplain.bits_press hok⟩

theorem release (h : s.At shift profile held b) (hm : (p, action) ∈ held)
    (hlen : held.length ≤ HijackedKeys.capacity) :
    s.PlainStep shift (.key action ⟨p, false⟩) ∧
      (s.apply (.key action ⟨p, false⟩)).At shift profile (held.filter (·.1 != p))
        (b.release (profile.pairs.get? (triggerOf action)) (decide (p = shift)) (held.filter (·.1 != p)).isEmpty) := by
  obtain ⟨hplain, rfl, rfl, rfl⟩ := h
  obtain ⟨k, hk, he⟩ := List.mem_map.1 hm
  cases he
  have hb : BoundTo shift k.position k.action := hplain.bound k hk
  rw [Session.held, List.length_map] at hlen
  have hok : s.PlainStep shift (.key k.action ⟨k.position, false⟩) :=
    PlainStep.of_few ⟨k, hk, rfl, rfl⟩ (by rintro _ _ ⟨⟩; exact hb) nofun
      (Nat.le_trans (List.length_filter_le ..) hlen)
  have hheld : (s.apply (.key k.action ⟨k.position, false⟩)).held = s.held.filter (·.1 != k.position) := by
    rw [Session.held, Session.held, List.filter_map]
    rfl
  refine ⟨hok, hplain.apply hok, rfl, hheld, (hplain.bits_release hok).trans ?_⟩
  rw [← hheld, Session.held, List.isEmpty_map]

end At

end Session

end ShiftRemap
