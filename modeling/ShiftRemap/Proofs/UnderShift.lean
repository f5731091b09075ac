import ShiftRemap.Proofs.PlainRuns

/-!
# Does the filter follow the shift key?

Two things that one would expect of every plain run: a press of a trigger types the pair's shifted chord
exactly while the shift key is down (`RightSymbols`), and left shift is registered exactly while the shift key
is down, as long as no hijacked press is (`PutsShiftBack`).

Neither holds of all pairs. The tracked flag is read off the registered left shift, which the filter itself
clears and sets. So the flag goes wrong when the shift key comes up while the filter has left shift cleared,
when the pair's shifted chord keeps it registered until the release, and when triggers of one parity overlap.
Only a pair that goes from an unshifted to a shifted chord keeps left shift as the shift key has it. With such
pairs alone the two bits never part from the shift key (`Steady`), and with any other pair there is a run of
at most five events in which they do (`putsShiftBack_iff`, `rightSymbols_iff`).
-/

namespace ShiftRemap

open Keyboard Remapper Session

/-! ## What is expected -/

/-- The chord of the first hijack that the press of a key tells of. -/
def Keyboard.hijackedTo? (action : Action) (p : Position) (kb : Keyboard) : Option Chord :=
  ((kb.processKey action (.press p)).reporter.notices.drop kb.reporter.notices.length).findSome? fun
    | .hijacked _ _ output => some output
    | _ => none

/-- The press of a key is hijacked to a chord: left shift is registered as the chord has it, and the key of
the chord is registered if there is room for it. -/
structure Keyboard.HijackedTo (action : Action) (p : Position) (output : Chord) (kb : Keyboard) : Prop where
  takes : kb.takes action (.press p) = true
  told : kb.hijackedTo? action p = some output
  shift : (kb.processKey action (.press p)).report.leftShift = output.isShifted
  key : kb.reporter.hasRoom output.key → (kb.processKey action (.press p)).reporter.registered output.key

/-- Every press of a trigger types the chord that the shift key asks for. -/
def RightSymbols (profile : Profile) : Prop :=
  ∀ (shift p : Position) (capacity : Nat) (ops : List Op) (action : Action) (pair : Pair),
    (Session.new profile capacity).Follows (PlainStep shift) (ops ++ [.key action ⟨p, true⟩]) →
    profile.pairs.get? (triggerOf action) = some pair →
    let s := (Session.new profile capacity).run ops
    s.keyboard.HijackedTo action p (pair.output (decide (s.IsDown shift)))

/-- Left shift is reported exactly while the shift key is down, unless a hijacked press is down too. -/
def PutsShiftBack (profile : Profile) : Prop :=
  ∀ (shift : Position) (capacity : Nat) (ops : List Op),
    (Session.new profile capacity).Follows (PlainStep shift) ops →
    let s := (Session.new profile capacity).run ops
    (∀ k ∈ s.down, k.hijacked = false) → (s.keyboard.report.leftShift = true ↔ s.IsDown shift)

/-! ## What a hijacked press does -/

section Press

variable {shift p : Position} {s : Session} {action : Action} {pair : Pair}

namespace Reporter

variable {r : Reporter} {held : Bool}

/-- Entries are only added to the journal. -/
theorem callsKeep_journal (l : List Reporter.Entry) : KeyCallsKeep fun r : Reporter => l <+: r.journal.toList := by
  have hear {n : Notice} {r : Reporter} (h : l <+: r.journal.toList) : l <+: (r.hear n).journal.toList :=
    h.trans (by simp [Reporter.hear])
  have send {r : Reporter} (h : l <+: r.journal.toList) : l <+: r.send.journal.toList := by
    unfold Reporter.send
    split
    · exact h
    · split <;> exact h.trans (by simp)
  exact {
    register := fun {k r} h => send (by
      unfold Reporter.hold
      split
      · exact h
      · split
        · exact h
        · split
          · exact hear h
          · exact h)
    unregister := fun {k r} h => send (by
      unfold Reporter.letGo
      split
      · exact h
      · split <;> exact h)
    note := fun h _ => hear h }

/-- The first notice of a hijacked press is that of the chord it types. -/
theorem notices_press (pair : Pair) (held : Bool) (r : Reporter) : ∃ l, (ShiftFilter.press pair held r).notices =
    r.notices ++ .hijacked pair.trigger held (pair.output held) :: l := by
  have hj := callsKeep_journal (r.journal.toList ++ [.noted (.hijacked pair.trigger held (pair.output held))])
  have hnote : r.journal.toList ++ [.noted (.hijacked pair.trigger held (pair.output held))] <+:
      (KeyHost.note (.hijacked pair.trigger held (pair.output held)) r).journal.toList := by
    simp [KeyHost.note, Reporter.hear]
  obtain ⟨l, hl⟩ := hj.register (hj.unregister (hj.setShift hnote))
  refine ⟨l.filterMap Reporter.Entry.notice?, ?_⟩
  show List.filterMap _ (ShiftFilter.press pair held r).journal.toList = _
  rw [show (ShiftFilter.press pair held r).journal.toList = _ from hl.symm]
  simp [Reporter.notices, Reporter.Entry.notice?]

end Reporter

theorem Session.Plain.hijackedTo (h : s.Plain shift) (hok : s.PlainStep shift (.key action ⟨p, true⟩))
    (hpair : s.keyboard.profile.pairs.get? (triggerOf action) = some pair) :
    s.keyboard.HijackedTo action p (pair.output (s.bits.held || s.bits.bit)) := by
  obtain ⟨hijacked, he⟩ := h.processKey_eq hok
  rw [h.track_press hok] at he
  simp only [struck, hpair, if_true] at he
  have hrep : (s.keyboard.processKey action (.press p)).reporter =
      ShiftFilter.press pair (s.bits.held || s.bits.bit) (s.keyboard.reporter.updateMatrix (.press p)) :=
    congrArg Keyboard.reporter he
  rw [h.tracked.updateMatrix hok.alternates hok.room] at hrep
  have hout := KeyCode.canTrigger_iff.1 ((h.basic.typable pair (PairTable.mem_of_get? hpair).1).output
    (s.bits.held || s.bits.bit))
  exact {
    takes := by rw [h.takes_press, hpair]; rfl
    told := by
      obtain ⟨l, hl⟩ := Reporter.notices_press pair (s.bits.held || s.bits.bit) { s.keyboard.reporter with
        matrix := ⟨s.keyboard.reporter.matrix.held ++ [p]⟩ }
      rw [Keyboard.hijackedTo?, hrep, hl]
      -- recording the position is no notice
      exact congrArg (List.findSome? _) List.drop_left
    shift := by
      rw [Keyboard.report, Reporter.leftShift_report, hrep]
      exact ShiftFilter.has_press hout.2
    key := fun hroom => by
      rw [hrep]
      exact ShiftFilter.registered_press_key hroom }

end Press

/-! ## Pairs that leave shift alone -/

theorem Pair.isShifted_output {p : Pair} (h : p.restoresShift = false) (held : Bool) :
    (p.output held).isShifted = held := by
  obtain ⟨hn, hs⟩ := Pair.restoresShift_eq_false_iff.1 h
  cases held
  · exact hn
  · exact hs

namespace Session

variable {shift p : Position} {s : Session} {op : Op}

/-- The shift key is no trigger. -/
theorem Plain.ne_shift {action : Action} {pair : Pair} (h : s.Plain shift) (hb : BoundTo shift p action)
    (hget : s.keyboard.profile.pairs.get? (triggerOf action) = some pair) : p ≠ shift := by
  rintro rfl
  rw [show action = .shift from (if_pos rfl).mp hb, h.basic.get?_shift] at hget
  cases hget

theorem isDown_press (action : Action) (p q : Position) :
    (s.apply (.key action ⟨p, true⟩)).IsDown q ↔ p = q ∨ s.IsDown q := by
  simp [IsDown, Session.apply]

theorem isDown_release (action : Action) (p q : Position) :
    (s.apply (.key action ⟨p, false⟩)).IsDown q ↔ s.IsDown q ∧ q ≠ p := by
  constructor
  · rintro ⟨k, hk, rfl⟩
    obtain ⟨hk, hne⟩ := List.mem_filter.1 hk
    exact ⟨⟨k, hk, rfl⟩, by simpa using hne⟩
  · rintro ⟨⟨k, hk, rfl⟩, hne⟩
    exact ⟨k, List.mem_filter.2 ⟨hk, by simpa using hne⟩, rfl⟩

/-- Left shift is registered exactly while the shift key is down, and it is tracked no longer than that. -/
structure Steady (shift : Position) (s : Session) : Prop where
  plain : s.Plain shift
  pairs : ∀ p ∈ s.keyboard.profile.pairs.pairs, p.restoresShift = false
  bit : s.bits.bit = true ↔ s.IsDown shift
  held : s.bits.held = true → s.IsDown shift

namespace Steady

theorem new {profile : Profile} (h : profile.Basic) (hp : ∀ p ∈ profile.pairs.pairs, p.restoresShift = false)
    (capacity : Nat) : (Session.new profile capacity).Steady shift where
  plain := .new h capacity
  pairs := hp
  bit := by
    rw [(At.new h shift capacity).bits]
    exact ⟨nofun, fun ⟨_, hk, _⟩ => nomatch hk⟩
  held hh := by
    rw [(At.new h shift capacity).bits] at hh
    cases hh

/-- At a press, the tracked flag becomes what it should be. -/
theorem held_or_bit (h : s.Steady shift) : (s.bits.held || s.bits.bit) = decide (s.IsDown shift) := by
  rw [Bool.eq_iff_iff, Bool.or_eq_true, decide_eq_true_iff, h.bit]
  exact ⟨fun hd => hd.elim h.held id, .inr⟩

theorem apply_press {action : Action} (h : s.Steady shift) (hok : s.PlainStep shift (.key action ⟨p, true⟩)) :
    (s.apply (.key action ⟨p, true⟩)).Steady shift := by
  have hbits := h.plain.bits_press hok
  have hdown := isDown_press (s := s) action p shift
  refine ⟨h.plain.apply hok, by rw [profile_apply]; exact h.pairs, ?_, ?_⟩ <;> rw [hbits, hdown]
  · cases hget : s.keyboard.profile.pairs.get? (triggerOf action) with
    | some pair =>
      have hne := h.plain.ne_shift (hok.bound action _ rfl) hget
      show (pair.output (s.bits.held || s.bits.bit)).isShifted = true ↔ _
      rw [Pair.isShifted_output (h.pairs pair (PairTable.mem_of_get? hget).1), h.held_or_bit, decide_eq_true_iff]
      simp [hne]
    | none =>
      show (s.bits.bit || decide (p = shift)) = true ↔ _
      rw [Bool.or_eq_true, decide_eq_true_iff, h.bit, or_comm]
  · rw [ShiftBits.held_press, h.held_or_bit, decide_eq_true_iff]
    exact .inr

theorem apply_release {action : Action} (h : s.Steady shift) (hok : s.PlainStep shift (.key action ⟨p, false⟩)) :
    (s.apply (.key action ⟨p, false⟩)).Steady shift := by
  have hbits := h.plain.bits_release hok
  have hplain := h.plain.apply hok
  have hpairs : ∀ q ∈ (s.apply (.key action ⟨p, false⟩)).keyboard.profile.pairs.pairs, q.restoresShift = false := by
    rw [profile_apply]
    exact h.pairs
  cases hlast : (s.apply (.key action ⟨p, false⟩)).down.isEmpty with
  | true =>
    rw [hlast] at hbits
    refine ⟨hplain, hpairs, ?_, ?_⟩ <;> rw [hbits]
    · refine ⟨nofun, fun ⟨k, hk, _⟩ => ?_⟩
      rw [List.isEmpty_iff.1 hlast] at hk
      cases hk
    · nofun
  | false =>
    rw [hlast] at hbits
    refine ⟨hplain, hpairs, ?_, ?_⟩ <;> rw [hbits, isDown_release]
    · cases hget : s.keyboard.profile.pairs.get? (triggerOf action) with
      | some pair =>
        have hne := h.plain.ne_shift (hok.bound action _ rfl) hget
        have hrest := h.pairs pair (PairTable.mem_of_get? hget).1
        simp only [ShiftBits.release, hrest, Bool.false_eq_true, if_false, h.bit]
        exact ⟨fun hd => ⟨hd, Ne.symm hne⟩, And.left⟩
      | none =>
        show (s.bits.bit && !decide (p = shift)) = true ↔ _
        rw [Bool.and_eq_true, h.bit, Bool.not_eq_true', decide_eq_false_iff_not, ne_comm]
    · intro hh
      -- the flag is cleared, because left shift is registered whenever shift is tracked
      rw [ShiftBits.held_release, Bool.and_eq_true, Bool.not_eq_true'] at hh
      rw [h.bit.2 (h.held hh.1)] at hh
      cases hh.2

theorem apply (h : s.Steady shift) (hok : s.PlainStep shift op) : (s.apply op).Steady shift := by
  rcases op with ⟨action, p, _ | _⟩ | n | _ | n
  · exact h.apply_release hok
  · exact h.apply_press hok
  · exact absurd rfl (hok.layers n)
  · rw [show s.apply .finishDance = s from congrArg (Session.mk · s.down) (finishDance_of_nil h.plain.dances)]
    exact h
  · exact ⟨h.plain.apply hok, h.pairs, h.bit, h.held⟩

end Steady

end Session

/-! ## Pairs that do not

The shift key is at `(0, 0)` in the runs below, and two triggers are at `(0, 1)` and `(0, 2)`. -/

/-- Some plain run leaves these keys down, and these bits. -/
def Leaves (shift : Position) (profile : Profile) (capacity : Nat) (held : List (Position × Action))
    (b : ShiftBits) : Prop :=
  ∃ ops, (Session.new profile capacity).Follows (PlainStep shift) ops ∧
    ((Session.new profile capacity).run ops).At shift profile held b

namespace Leaves

variable {shift x : Position} {profile : Profile} {capacity : Nat} {held : List (Position × Action)}
  {b : ShiftBits} {a : Action}

theorem new (h : profile.Basic) (shift : Position) (capacity : Nat) : Leaves shift profile capacity [] ⟨false, false⟩ :=
  ⟨[], trivial, .new h shift capacity⟩

theorem press (h : Leaves shift profile capacity held b) (hx : ∀ e ∈ held, e.1 ≠ x) (hb : BoundTo shift x a)
    (hlen : held.length < HijackedKeys.capacity) :
    Leaves shift profile capacity ((x, a) :: held)
      (b.press (profile.pairs.get? (triggerOf a)) (decide (x = shift))) := by
  obtain ⟨ops, hf, ha⟩ := h
  obtain ⟨hok, ha⟩ := ha.press hx hb hlen
  exact ⟨ops ++ [_], Follows.append_iff.2 ⟨hf, hok, trivial⟩, by rwa [Session.run_append]⟩

theorem release (h : Leaves shift profile capacity held b) (hx : (x, a) ∈ held)
    (hlen : held.length ≤ HijackedKeys.capacity) :
    Leaves shift profile capacity (held.filter (·.1 != x))
      (b.release (profile.pairs.get? (triggerOf a)) (decide (x = shift)) (held.filter (·.1 != x)).isEmpty) := by
  obtain ⟨ops, hf, ha⟩ := h
  obtain ⟨hok, ha⟩ := ha.release hx hlen
  exact ⟨ops ++ [_], Follows.append_iff.2 ⟨hf, hok, trivial⟩, by rwa [Session.run_append]⟩

end Leaves

section Parting

variable {profile : Profile} {p : Pair} (h : profile.Basic) (hp : p ∈ profile.pairs.pairs) (capacity : Nat)
include h

theorem boundTo_trigger (hp : p ∈ profile.pairs.pairs) {col : UInt8} (hc : col ≠ 0) :
    BoundTo ⟨0, 0⟩ ⟨0, col⟩ (.key ⟨p.trigger, .empty⟩) := by
  unfold BoundTo
  rw [if_neg (by simpa using hc)]
  exact ⟨p.trigger, (KeyCode.canTrigger_iff.1 (h.typable p hp).normal).2, rfl⟩

theorem get?_trigger (hp : p ∈ profile.pairs.pairs) :
    profile.pairs.get? (triggerOf (.key ⟨p.trigger, .empty⟩)) = some p :=
  PairTable.get?_of_mem h.nodup hp

include hp

/-- The shift key and a trigger are pressed. -/
theorem leaves_shift_trigger :
    Leaves ⟨0, 0⟩ profile capacity [(⟨0, 1⟩, .key ⟨p.trigger, .empty⟩), (⟨0, 0⟩, .shift)]
      ⟨p.shifted.isShifted, true⟩ := by
  have h1 := (Leaves.new h ⟨0, 0⟩ capacity).press nofun ((if_pos rfl).mpr rfl) (by decide)
  rw [h.get?_shift] at h1
  have h2 := h1.press (x := ⟨0, 1⟩) (by decide) (boundTo_trigger h hp (by decide)) (by decide)
  rwa [get?_trigger h hp] at h2

/-- If the pair restores shift, some stroke of it leaves left shift cleared under the shift key. -/
theorem leaves_shift_lost (hr : p.restoresShift = true) :
    Leaves ⟨0, 0⟩ profile capacity [(⟨0, 0⟩, .shift)] ⟨false, false⟩ := by
  have h2 := leaves_shift_trigger h hp capacity
  have hget := get?_trigger h hp
  cases hs : p.shifted.isShifted with
  | true =>
    -- the release finds left shift registered, which clears the flag that it then restores
    rw [hs] at h2
    have h3 := h2.release (x := ⟨0, 1⟩) (a := .key ⟨p.trigger, .empty⟩) (by simp) (by simp [HijackedKeys.capacity])
    rw [hget] at h3
    simpa [ShiftBits.release, hr] using h3
  | false =>
    -- of two strokes that overlap, the release of the first restores shift and that of the second clears it
    rw [hs] at h2
    have h3 := h2.press (x := ⟨0, 2⟩) (by simp) (boundTo_trigger h hp (by decide)) (by simp [HijackedKeys.capacity])
    have h4 := h3.release (x := ⟨0, 1⟩) (a := .key ⟨p.trigger, .empty⟩) (by simp)
      (by simp [HijackedKeys.capacity])
    have h5 := h4.release (x := ⟨0, 2⟩) (a := .key ⟨p.trigger, .empty⟩) (by simp)
      (by simp [HijackedKeys.capacity])
    rw [hget] at h5
    simpa [ShiftBits.release, ShiftBits.press, Pair.output, hr, hs] using h5

end Parting

/-! ## The exact conditions -/

theorem putsShiftBack_iff {profile : Profile} (h : profile.Basic) :
    PutsShiftBack profile ↔ ∀ p ∈ profile.pairs.pairs, p.restoresShift = false := by
  constructor
  · intro hback p hp
    rw [Bool.eq_false_iff]
    intro hr
    obtain ⟨ops, hf, ha⟩ := leaves_shift_lost h hp 0 hr
    have hlost : ((Session.new profile 0).run ops).keyboard.report.leftShift = false :=
      congrArg ShiftBits.bit ha.bits
    have hleft : ∀ k ∈ ((Session.new profile 0).run ops).down, k.hijacked = false := by
      intro k hk
      have hact : k.action = .shift := congrArg Prod.snd (List.mem_singleton.1 (ha.mem_held hk))
      rw [ha.plain.hijacked k hk, Stroke.isTrigger, ha.profile, hact, h.get?_shift]
      rfl
    have hbit := (hback ⟨0, 0⟩ 0 ops hf hleft).2 (ha.isDown_iff.2 (List.mem_singleton_self _))
    rw [hlost] at hbit
    cases hbit
  · intro hp shift capacity ops hf s _
    have hs : s.Steady shift := hf.keeps Steady.apply (.new h hp capacity)
    exact hs.bit

/-- Only the two bits decide what a press of a trigger is hijacked to. -/
theorem hijackedTo_of_follows {profile : Profile} (h : profile.Basic) {shift x : Position} {capacity : Nat}
    {ops : List Op} {action : Action} {pair : Pair}
    (hf : (Session.new profile capacity).Follows (PlainStep shift) (ops ++ [.key action ⟨x, true⟩]))
    (hpair : profile.pairs.get? (triggerOf action) = some pair) :
    let s := (Session.new profile capacity).run ops
    s.keyboard.HijackedTo action x (pair.output (s.bits.held || s.bits.bit)) := by
  obtain ⟨hf, hok, _⟩ := Follows.append_iff.1 hf
  have hplain := hf.keeps Plain.apply (.new h capacity)
  refine hplain.hijackedTo hok ?_
  rw [profile_run]
  exact hpair

theorem rightSymbols_iff {profile : Profile} (h : profile.Basic) :
    RightSymbols profile ↔
      (∀ p ∈ profile.pairs.pairs, p.restoresShift = false) ∨ ∀ p ∈ profile.pairs.pairs, p.normal = p.shifted := by
  constructor
  · intro hright
    by_cases hall : ∀ p ∈ profile.pairs.pairs, p.restoresShift = false
    · exact .inl hall
    · refine .inr fun q hq => ?_
      obtain ⟨p, hp, hr⟩ : ∃ p ∈ profile.pairs.pairs, p.restoresShift = true := by simpa using hall
      -- once left shift is lost under the shift key, every trigger types its normal chord
      obtain ⟨ops, hf, ha⟩ := leaves_shift_lost h hp 0 hr
      obtain ⟨hok, _⟩ := ha.press (p := ⟨0, 2⟩) (by simp) (boundTo_trigger h hq (by decide))
        (by simp [HijackedKeys.capacity])
      have hf' : (Session.new profile 0).Follows (PlainStep ⟨0, 0⟩)
          (ops ++ [.key (.key ⟨q.trigger, .empty⟩) ⟨⟨0, 2⟩, true⟩]) := Follows.append_iff.2 ⟨hf, hok, trivial⟩
      have hwrong := (hijackedTo_of_follows h hf' (get?_trigger h hq)).told
      have hdown : ((Session.new profile 0).run ops).IsDown ⟨0, 0⟩ := ha.isDown_iff.2 (List.mem_singleton_self _)
      have hwant := (hright ⟨0, 0⟩ ⟨0, 2⟩ 0 ops _ q hf' (get?_trigger h hq)).told
      rw [ha.bits] at hwrong
      rw [hwrong, decide_eq_true hdown] at hwant
      exact Option.some.inj hwant
  · rintro (hp | hp) shift x capacity ops action pair hf hpair s
    · have hs : s.Steady shift := (Follows.append_iff.1 hf).1.keeps Steady.apply (.new h hp capacity)
      rw [← hs.held_or_bit]
      exact hijackedTo_of_follows h hf hpair
    · have hout : pair.output (decide (s.IsDown shift)) = pair.output (s.bits.held || s.bits.bit) := by
        unfold Pair.output
        rw [hp pair (PairTable.mem_of_get? hpair).1]
        split <;> split <;> rfl
      rw [hout]
      exact hijackedTo_of_follows h hf hpair

/-! ## Accepted settings -/

/-- **Shift is put back** on a keyboard with accepted settings exactly if each pair goes from an unshifted to a
shifted chord. -/
theorem accepted_putsShiftBack_iff {s : Settings} (h : s.check = .ok ()) (hb : s.baseLayer = 0) :
    ∃ profile, s.profile = .ok profile ∧
      (PutsShiftBack profile ↔ ∀ p ∈ profile.pairs.pairs, p.restoresShift = false) := by
  obtain ⟨profile, ha⟩ := Settings.profile_of_check h
  exact ⟨profile, ha.made, putsShiftBack_iff (ha.basic hb)⟩

theorem not_putsShiftBack_comma :
    Settings.commaSettings.check = .ok () ∧ Settings.commaSettings.baseLayer = 0 ∧
      ∃ profile, Settings.commaSettings.profile = .ok profile ∧ ¬ PutsShiftBack profile := by
  obtain ⟨profile, hmade, hiff⟩ := accepted_putsShiftBack_iff Settings.check_commaSettings rfl
  refine ⟨Settings.check_commaSettings, rfl, profile, hmade, fun hback => ?_⟩
  have hr := hiff.1 hback
  rw [Settings.pairs_commaSettings hmade] at hr
  exact absurd (hr _ (List.mem_singleton_self _)) (by decide)

/-- **The right symbols** are typed on a keyboard with accepted settings exactly if each pair goes from an
unshifted to a shifted chord, or if no pair changes anything. -/
theorem accepted_rightSymbols_iff {s : Settings} (h : s.check = .ok ()) (hb : s.baseLayer = 0) :
    ∃ profile, s.profile = .ok profile ∧
      (RightSymbols profile ↔
        (∀ p ∈ profile.pairs.pairs, p.restoresShift = false) ∨ ∀ p ∈ profile.pairs.pairs, p.normal = p.shifted) := by
  obtain ⟨profile, ha⟩ := Settings.profile_of_check h
  exact ⟨profile, ha.made, rightSymbols_iff (ha.basic hb)⟩

theorem not_rightSymbols_comma :
    Settings.commaSettings.check = .ok () ∧ Settings.commaSettings.baseLayer = 0 ∧
      ∃ profile, Settings.commaSettings.profile = .ok profile ∧ ¬ RightSymbols profile := by
  obtain ⟨profile, hmade, hiff⟩ := accepted_rightSymbols_iff Settings.check_commaSettings rfl
  refine ⟨Settings.check_commaSettings, rfl, profile, hmade, fun hright => ?_⟩
  have hr := hiff.1 hright
  rw [Settings.pairs_commaSettings hmade] at hr
  rcases hr with hr | hr
  · exact absurd (hr _ (List.mem_singleton_self _)) (by decide)
  · exact absurd (hr _ (List.mem_singleton_self _)) (by decide)

end ShiftRemap
