import ShiftRemap.Proofs.HijackRecord
import ShiftRemap.Proofs.IdleShift
import ShiftRemap.Proofs.ReportStream

/-!
# What a hijacked press sends

The filter sets left shift as the chord has it, lets the chord's key go, and registers it again: up to three
reports. `strikes_of_triggers` says what the host sees of them, in every state that a keyboard can reach. Left
shift is as the chord has it, and the other modifiers are as they were. If there is room for the key, the last
report shows it and the one before does not. All the reports show the other keys where they were
(`Report.SameBut`), and with six other keys registered no slot changes.
-/

namespace ShiftRemap

open Keyboard Remapper

/-! ## Reports that differ in one key -/

/-- All keys but `k` are shown where they were. -/
def Report.SameBut (k : KeyCode) (r r' : Report) : Prop :=
  ∀ (i : Nat) (u : UInt8), u ≠ 0 → u ≠ k.usage → (r'.keycodes[i]? = some u ↔ r.keycodes[i]? = some u)

namespace Report.SameBut

variable {r r' r'' : Report} {k : KeyCode}

theorem of_eq (h : r'.keycodes = r.keycodes) : r.SameBut k r' := by
  intro i u _ _
  rw [h]

theorem trans (h : r.SameBut k r') (h' : r'.SameBut k r'') : r.SameBut k r'' :=
  fun i u h0 hk => (h' i u h0 hk).trans (h i u h0 hk)

end Report.SameBut

namespace Reporter

variable {r r' start : Reporter} {k : KeyCode}

theorem keycodes_eq_iff (r : Reporter) (i : Nat) (u : UInt8) :
    r.report.keycodes[i]? = some u ↔ ∃ c, r.slots.cells[i]? = some c ∧ c.usage = u := by
  simp [report, Slots.usages]

/-- Exchanging `k` for a free slot or a free slot for `k` leaves the other keys where they are. -/
theorem sameBut_replace {a b : KeyCode} (h : r'.slots.cells = r.slots.cells.replace a b)
    (ha : a = .no ∨ a = k) (hb : b = .no ∨ b = k) : r.report.SameBut k r'.report := by
  intro i u h0 hu
  have hne (c : KeyCode) (hc : c.usage = u) (d : KeyCode) (hd : d = .no ∨ d = k) : c ≠ d := by
    rintro rfl
    rcases hd with rfl | rfl
    · exact h0 hc.symm
    · exact hu hc.symm
  rw [keycodes_eq_iff, keycodes_eq_iff, h]
  refine exists_congr fun c => and_congr_left fun hc => ?_
  exact Slots.getElem?_replace (hne c hc a ha) (hne c hc b hb)

theorem sameBut_hold (k : KeyCode) (r : Reporter) : r.report.SameBut k (r.hold k).report := by
  unfold hold
  split
  · exact .of_eq rfl
  · split
    · exact .of_eq rfl
    · split
      · exact .of_eq rfl
      · exact sameBut_replace rfl (.inl rfl) (.inr rfl)

theorem sameBut_letGo (k : KeyCode) (r : Reporter) : r.report.SameBut k (r.letGo k).report := by
  unfold letGo
  split
  · exact .of_eq rfl
  · split
    · exact .of_eq rfl
    · exact sameBut_replace rfl (.inr rfl) (.inl rfl)

/-! ## The reports of a hijacked press -/

/-- `r` offered the reports `sent` since `start`, and all of them show the keys but `k` where `start` has
them. -/
structure SentBut (start : Reporter) (k : KeyCode) (sent : List Report) (r : Reporter) : Prop where
  synced : r.Synced
  attempted : r.attempted = start.attempted ++ sent
  report : start.report.SameBut k r.report
  sent : ∀ x ∈ sent, start.report.SameBut k x

namespace SentBut

variable {sent : List Report}

theorem refl (h : r.Synced) (k : KeyCode) : r.SentBut k [] r where
  synced := h
  attempted := (List.append_nil _).symm
  report := .of_eq rfl
  sent := by simp

/-- A change of other keys than `k` is none; what was changed is sent. -/
theorem send (h : start.SentBut k sent r) (hs : r.SameOffers r') (hk : r.report.SameBut k r'.report) :
    start.SentBut k (sent ++ if r'.report = r.report then [] else [r'.report]) r'.send := by
  have hreport := h.report.trans hk
  refine ⟨(h.synced.send hs).1, ?_, by rwa [report_send], ?_⟩
  · rw [attempted_send, hs.last, hs.attempted, h.synced.last, h.attempted]
    split
    · rw [List.append_nil]
    · rw [List.append_assoc]
  · intro x hx
    rcases List.mem_append.1 hx with hx | hx
    · exact h.sent x hx
    · split at hx
      · cases hx
      · rw [List.mem_singleton.1 hx]
        exact hreport

theorem hear (h : start.SentBut k sent r) {n : Notice} (hn : n.dropped? = none) : start.SentBut k sent (r.hear n) where
  synced := (h.synced.hear hn).1
  attempted := (sameOffers_hear hn r).attempted.trans h.attempted
  report := h.report
  sent := h.sent

/-- The report sent last, or current if none was sent. -/
theorem getLastD (hstart : start.Synced) (h : start.SentBut k sent r) : sent.getLastD start.report = r.report := by
  have hlast := h.synced.attempted.trans h.synced.last
  rw [h.attempted] at hlast
  cases hnil : sent with
  | nil =>
    rw [hnil, List.append_nil, hstart.attempted, hstart.last] at hlast
    exact hlast
  | cons x xs =>
    rw [← hlast, hnil]
    simp [List.getLastD_eq_getLast?, List.getLast?_cons]

end SentBut

/-- What the host sees of a key that is struck with the chord `out`: `seen` is the keyboard before, and `after`
the keyboard after it. -/
structure Strikes (seen : Reporter) (out : Chord) (after : Reporter) : Prop where
  shift : after.report.leftShift = out.isShifted
  mods (m : Modifier) : m ≠ .leftShift → after.report.has m = seen.report.has m
  /-- If the key was registered or a slot was free, the last report shows the key, and the report before it, sent
  or current, does not. -/
  fresh : out.key ∈ seen.slots.cells ∨ .no ∈ seen.slots.cells →
    out.key ∈ after.slots.cells ∧
      ∃ sent, after.attempted = seen.attempted ++ sent ++ [after.report] ∧
        out.key.usage ∈ after.report.keycodes.toList ∧ out.key.usage ∉ (sent.getLastD seen.report).keycodes.toList
  full : out.key ∉ seen.slots.cells → .no ∉ seen.slots.cells → after.slots = seen.slots
  /-- No other key appears, disappears or moves. -/
  others : seen.report.SameBut out.key after.report ∧
    ∃ sent, after.attempted = seen.attempted ++ sent ∧ ∀ x ∈ sent, seen.report.SameBut out.key x

theorem slots_unregister_of_not_mem (hk : k ∉ r.slots.cells) : (KeyHost.unregister k r).slots = r.slots := by
  rw [show (KeyHost.unregister k r).slots = (r.letGo k).slots from slots_send _]
  unfold letGo
  split
  · rfl
  · split
    · rfl
    · exact Slots.ext (List.replace_of_not_mem hk)

theorem slots_register_of_full (hfull : .no ∉ r.slots.cells) : (KeyHost.register k r).slots = r.slots := by
  rw [show (KeyHost.register k r).slots = (r.hold k).slots from slots_send _]
  unfold hold
  split
  · rfl
  · split
    · rfl
    · rw [if_pos (by simpa [Slots.isFull] using hfull)]
      rfl

theorem usage_mem_keycodes : k.usage ∈ r.report.keycodes.toList ↔ k ∈ r.slots.cells := by
  rw [report, Slots.toList_usages]
  exact ⟨fun h => by obtain ⟨c, hc, he⟩ := List.mem_map.1 h; exact KeyCode.usage_injective he ▸ hc,
    List.mem_map_of_mem⟩

end Reporter

namespace ShiftFilter

open Reporter

variable {pair : Pair} {held : Bool} {seen : Reporter}

/-- What precedes the registering of the key: left shift is set, and the key let go. -/
def primed (pair : Pair) (held : Bool) (seen : Reporter) : Reporter :=
  seen |> KeyHost.note (.hijacked pair.trigger held (pair.output held))
    |> KeyHost.setShift (pair.output held).isShifted
    |> KeyHost.unregister (pair.output held).key

theorem press_eq (pair : Pair) (held : Bool) (seen : Reporter) :
    press pair held seen = ((primed pair held seen).hold (pair.output held).key).send := rfl

theorem sentBut_primed (hsync : seen.Synced) (pair : Pair) (held : Bool) :
    ∃ sent, seen.SentBut (pair.output held).key sent (primed pair held seen) := by
  have hnote : seen.SentBut (pair.output held).key []
      (seen.hear (.hijacked pair.trigger held (pair.output held))) :=
    (SentBut.refl hsync _).hear rfl
  obtain ⟨sent, hshift⟩ : ∃ sent, seen.SentBut (pair.output held).key sent
      (KeyHost.setShift (pair.output held).isShifted (seen.hear (.hijacked pair.trigger held (pair.output held)))) := by
    unfold KeyHost.setShift
    split
    · exact ⟨_, hnote.send (sameOffers_hold ..) (.of_eq rfl)⟩
    · exact ⟨_, hnote.send (sameOffers_letGo ..) (.of_eq rfl)⟩
  exact ⟨_, hshift.send (sameOffers_letGo ..) (sameBut_letGo _ _)⟩

theorem not_mem_slots_primed (htidy : seen.slots.Tidy) (h0 : (pair.output held).key ≠ .no) :
    (pair.output held).key ∉ (primed pair held seen).slots.cells := by
  have hshift : (KeyHost.setShift (pair.output held).isShifted
      (KeyHost.note (.hijacked pair.trigger held (pair.output held)) seen)).slots.Tidy := by
    rw [slots_setShift]
    exact htidy
  rw [primed, mem_slots_unregister hshift h0]
  exact fun h => h.2 rfl

/-- The filter strikes the key of a chord. -/
theorem strikes_press (hsync : seen.Synced) (htidy : seen.slots.Tidy) (h0 : (pair.output held).key ≠ .no)
    (hplain : (pair.output held).key.isModifier = false) :
    seen.Strikes (pair.output held) (press pair held seen) := by
  have hmod := KeyCode.modifier?_eq_none hplain
  have hbefore := not_mem_slots_primed htidy h0
  obtain ⟨sent, hsent⟩ := sentBut_primed hsync pair held
  have hall := hsent.send (sameOffers_hold (pair.output held).key _) (sameBut_hold _ _)
  rw [← press_eq] at hall
  constructor
  case shift =>
    rw [leftShift_report]
    exact has_press hplain
  case mods =>
    intro m hm
    have hne : (pair.output held).key ≠ m.key := by
      intro h
      rw [h, KeyCode.modifier?_key] at hmod
      cases hmod
    unfold press
    simp only [has_report, has_register, has_unregister, has_setShift_of_ne hm, hne, decide_false, Bool.not_false,
      Bool.and_true, Bool.or_false]
    rfl
  case fresh =>
    intro hroom
    have hin : (pair.output held).key ∈ (press pair held seen).slots.cells :=
      ((registered_plain hmod).1 (registered_press_key fun _ => ⟨h0, hroom⟩)).2
    have hshown := usage_mem_keycodes.2 hin
    have hnew : ((primed pair held seen).hold (pair.output held).key).report ≠ (primed pair held seen).report := by
      intro he
      rw [press_eq, report_send, he] at hshown
      exact hbefore (usage_mem_keycodes.1 hshown)
    refine ⟨hin, sent, ?_, hshown, ?_⟩
    · rw [hall.attempted, if_neg hnew, press_eq, report_send, List.append_assoc]
    · rw [hsent.getLastD hsync]
      exact fun h => hbefore (usage_mem_keycodes.1 h)
  case full =>
    intro hk hfull
    have hprimed : (primed pair held seen).slots = seen.slots := by
      rw [primed, slots_unregister_of_not_mem (by rw [slots_setShift]; exact hk), slots_setShift]
      rfl
    show (KeyHost.register _ (primed pair held seen)).slots = seen.slots
    rw [slots_register_of_full (hprimed.symm ▸ hfull), hprimed]
  case others => exact ⟨hall.report, _, hall.attempted, hall.sent⟩

end ShiftFilter

namespace Reporter.Strikes

variable {seen after : Reporter} {out : Chord}

/-- A notice that tells of no dropped report shows nothing. -/
theorem hear (h : seen.Strikes out after) {n : Notice} (hn : n.dropped? = none) : seen.Strikes out (after.hear n) := by
  have hsent := (sameOffers_hear hn after).attempted
  refine ⟨h.shift, h.mods, fun hroom => ?_, h.full, h.others.1, ?_⟩
  · rw [hsent]
    exact h.fresh hroom
  · rw [hsent]
    exact h.others.2

end Reporter.Strikes

/-- The press of a trigger, on a host on which some key is down, is taken over; there may be a notice that it
cannot be remembered. -/
theorem Remapper.filtered_of_triggered {σ : Type} [KeyHost σ] {profile : Profile} {action : Action} {p : Position}
    {pair : Pair} {r : Remapper} {h : σ} (hp : triggered? profile action (r.prepare (.press p) h).2 = some pair)
    (hm : KeyHost.anyKeyHeld (r.prepare (.press p) h).2 = true) :
    let struck := ShiftFilter.press pair (r.shiftHeld || (KeyHost.modifiers (r.prepare (.press p) h).2).has .leftShift)
      (r.prepare (.press p) h).2
    ∃ r' h', r.filtered profile action (.press p) h = (true, r', h') ∧
      (h' = struck ∨ h' = KeyHost.note (.tooManyHijacked p) struck) := by
  have hf : r.filtered profile action (.press p) h = _ := filter_press rfl hp
  rw [tracker_prepare, ShiftTracker.track_press hm] at hf
  exact ⟨_, _, hf, host_remember ..⟩

namespace Keyboard

variable {kb : Keyboard} {p : Position} {chord : Chord} {pair : Pair}

/-- A press of a trigger is taken over, and strikes the chord that the tracked shift and the left shift bit ask
for. -/
theorem strikes_of_triggered (hsync : (kb.seen (.press p)).Synced) (htidy : (kb.seen (.press p)).slots.Tidy)
    (hpair : kb.profile.pairs.get? chord.key = some pair) (hlayer : kb.highestLayer = kb.profile.baseLayer)
    (h0 : (pair.output (kb.shiftHeld || (kb.seen (.press p)).mods.has .leftShift)).key ≠ .no)
    (hplain : (pair.output (kb.shiftHeld || (kb.seen (.press p)).mods.has .leftShift)).key.isModifier = false) :
    kb.takes (.key chord) (.press p) = true ∧
      (kb.seen (.press p)).Strikes (pair.output (kb.shiftHeld || (kb.seen (.press p)).mods.has .leftShift))
        (kb.processKey (.key chord) (.press p)).reporter := by
  have htrig : triggered? kb.profile (.key chord) (kb.seen (.press p)) = some pair := by
    rw [triggered?_seen, if_pos hlayer]
    exact hpair
  have hheld : KeyHost.anyKeyHeld (kb.seen (.press p)) = true :=
    (congrArg Matrix.anyHeld (matrix_seen kb (.key chord) (.press p))).trans (anyHeld_press kb (.key chord) p)
  obtain ⟨r, h, hf, hh⟩ := filtered_of_triggered htrig hheld
  obtain ⟨htakes, hkb⟩ := processKey_of_taken hf
  have hpress := ShiftFilter.strikes_press hsync htidy h0 hplain
  refine ⟨htakes, ?_⟩
  rw [hkb]
  rcases hh with rfl | rfl
  · exact hpress
  · exact hpress.hear rfl

/-- **What a hijacked press sends.** In every state that a keyboard can reach, a press of a key that triggers a
pair on the base layer is taken over. Once it has interrupted the dances of the other positions, it strikes the
pair's shifted chord if left shift is registered or was tracked, and the normal chord otherwise; the modifiers of
the key's own chord are ignored. -/
theorem strikes_of_triggers (profile : Profile) (capacity : Nat) (ops : List Op) :
    let kb := (Keyboard.new profile capacity).run ops
    ∀ (chord : Chord) (p : Position) (pair : Pair), profile.pairs.get? chord.key = some pair →
      kb.highestLayer = profile.baseLayer →
      let seen := (kb.remapper.interruptDances p (kb.reporter.updateMatrix (.press p))).2
      let out := pair.output (kb.shiftHeld || seen.mods.has .leftShift)
      out.key ≠ .no → out.key.isModifier = false →
      kb.takes (.key chord) (.press p) = true ∧
        seen.Strikes out (kb.processKey (.key chord) (.press p)).reporter := by
  intro kb chord p pair hpair hlayer seen out h0 hplain
  have hprofile : kb.profile = profile := run_profile _ ops
  have hseen : seen.Streaming := Reporter.opsKeep_streaming.interruptDances
    (Reporter.opsKeep_streaming.updateMatrix (streaming_run profile capacity ops))
  have htidy : seen.slots.Tidy := Reporter.opsKeep_tidy.interruptDances
    (Reporter.opsKeep_tidy.updateMatrix (tidy_run profile capacity ops))
  exact strikes_of_triggered hseen.synced htidy (hprofile.symm ▸ hpair) (hprofile.symm ▸ hlayer) h0 hplain

/-- Shift and semicolon are down, and a layer tap is pending. -/
def semicolonDown : List Op :=
  [.key (.key ⟨.leftShift, .empty⟩) (.press ⟨0, 0⟩), .key (.key ⟨.semicolon, .empty⟩) (.press ⟨0, 1⟩),
    .key (.layerTap 2 ⟨.keyB, .empty⟩) (.press ⟨0, 2⟩)]

/-- Comma strikes the semicolon again, without shift. -/
theorem strikes_semicolonDown :
    let kb := (Keyboard.new ⟨0, .linux, commaTable⟩ 2).run semicolonDown
    let seen := (kb.remapper.interruptDances ⟨0, 3⟩ (kb.reporter.updateMatrix (.press ⟨0, 3⟩))).2
    commaTable.get? .comma = some ⟨⟨.comma, .empty⟩, ⟨.semicolon, .empty⟩⟩ ∧ kb.highestLayer = 0 ∧
      KeyCode.semicolon ≠ .no ∧ KeyCode.semicolon.isModifier = false ∧
      kb.takes (.key ⟨.comma, .ctrl⟩) (.press ⟨0, 3⟩) = true ∧
      seen.Strikes ⟨.semicolon, .empty⟩ (kb.processKey (.key ⟨.comma, .ctrl⟩) (.press ⟨0, 3⟩)).reporter := by
  intro kb seen
  have hpair : commaTable.get? .comma = some ⟨⟨.comma, .empty⟩, ⟨.semicolon, .empty⟩⟩ := by decide
  have hlayer : kb.highestLayer = 0 := by decide +kernel
  have hout : (Pair.mk ⟨.comma, .empty⟩ ⟨.semicolon, .empty⟩).output (kb.shiftHeld || seen.mods.has .leftShift) =
      ⟨.semicolon, .empty⟩ := by decide +kernel
  obtain ⟨htakes, hstrikes⟩ := strikes_of_triggers ⟨0, .linux, commaTable⟩ 2 semicolonDown ⟨.comma, .ctrl⟩ ⟨0, 3⟩ _
    hpair hlayer (by decide +kernel) (by decide +kernel)
  exact ⟨hpair, hlayer, by decide, by decide, htakes, hout ▸ hstrikes⟩

end Keyboard

end ShiftRemap
