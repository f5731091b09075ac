import ShiftRemap.Proofs.HijackedReleases
import ShiftRemap.Proofs.ReportChanges

/-!
# Keys taken out of a report

`Report.without` clears the bits and frees the slots of some keys; no other key moves. That is what unregistering
does to the report, of a key as of a chord (`report_unregister`, `report_unregisterChord`), and in which order
the keys are taken out does not matter (`Report.without_congr`).

Registered keys are a set and are not counted. So a key that is registered and let go again is gone, whether it was
registered before or not: a tap takes the keys of its chord out of the report as well (`report_tap`).
-/

namespace ShiftRemap

namespace Report

/-- The report with these keys taken out. The other keys stay where they are. -/
def without (ks : List KeyCode) (r : Report) : Report :=
  { r with
    modifier := (Modifiers.ofPred fun m => r.has m && decide (m.key ∉ ks)).toByte
    keycodes := r.keycodes.map fun u => if u ∈ ks.map KeyCode.usage then 0 else u }

variable {r r' : Report} {ks js : List KeyCode} {m : Modifier}

theorem ext_has (hm : ∀ m, r.has m = r'.has m) (hk : r.keycodes = r'.keycodes) (hr : r.reserved = r'.reserved)
    (hl : r.leds = r'.leds) : r = r' := by
  have hbits : Modifiers.ofByte r.modifier = Modifiers.ofByte r'.modifier := Modifiers.ext_has hm
  have hbyte : r.modifier = r'.modifier := congrArg Modifiers.toByte hbits
  cases r
  cases r'
  cases hbyte
  cases hk
  cases hr
  cases hl
  rfl

@[simp] theorem has_without : (r.without ks).has m = (r.has m && decide (m.key ∉ ks)) := Modifiers.has_ofPred _ m

theorem without_nil (r : Report) : r.without [] = r := by
  refine ext_has (fun m => by simp) ?_ rfl rfl
  simp [without]

theorem without_without (r : Report) (ks js : List KeyCode) : (r.without ks).without js = r.without (ks ++ js) := by
  refine ext_has (fun m => ?_) ?_ rfl rfl
  · simp [Bool.and_assoc]
  · simp only [without, Vector.map_map]
    congr 1
    funext u
    simp only [Function.comp_apply, List.map_append, List.mem_append]
    grind

/-- Which keys are taken out matters, and nothing else. -/
theorem without_congr (h : ∀ k, k ∈ ks ↔ k ∈ js) (r : Report) : r.without ks = r.without js := by
  have hu (u : UInt8) : u ∈ ks.map KeyCode.usage ↔ u ∈ js.map KeyCode.usage := by simp only [List.mem_map, h]
  simp only [without, h, hu]

end Report

/-- Exchanging one entry of a list for another goes unnoticed by a function that does not tell them apart. -/
theorem Slots.map_replace {α : Type} {f : KeyCode → α} {a b : KeyCode} (h : f a = f b) (l : List KeyCode) :
    (l.replace a b).map f = l.map f := by
  induction l with
  | nil => rfl
  | cons x l ih =>
    rw [List.replace_cons]
    by_cases hx : a = x
    · subst hx
      simp [h]
    · simp [beq_eq_false_iff_ne.2 hx, ih]

namespace Reporter

variable {r r' : Reporter} {k : KeyCode} {ks : List KeyCode} {c : Chord}

/-- Recording where a key is down leaves the report alone. -/
theorem report_updateMatrix (e : KeyEvent) (r : Reporter) : (r.updateMatrix e).report = r.report := by
  simp only [report, updateMatrix_mods, updateMatrix_slots]

/-! ## Unregistering -/

/-- The slots of a report from which keys were taken out. -/
theorem keycodes_without (ks : List KeyCode) (r : Reporter) :
    (r.report.without ks).keycodes.toList = (r.slots.cells.map fun c => if c ∈ ks then .no else c).map KeyCode.usage := by
  have hmem (c : KeyCode) : c.usage ∈ ks.map KeyCode.usage ↔ c ∈ ks := by
    simp only [List.mem_map]
    exact ⟨fun ⟨d, hd, he⟩ => KeyCode.usage_injective he ▸ hd, fun hc => ⟨c, hc, rfl⟩⟩
  have hlist : (r.report.without ks).keycodes.toList =
      r.report.keycodes.toList.map fun u => if u ∈ ks.map KeyCode.usage then 0 else u := Vector.toList_map
  rw [hlist, report, Slots.toList_usages, List.map_map, List.map_map]
  refine List.map_congr_left fun c _ => ?_
  simp only [Function.comp_apply, hmem]
  split <;> rfl

/-- What the bits and slots must be for keys to have been taken out. -/
theorem report_eq_without (hm : ∀ m, r'.mods.has m = (r.mods.has m && decide (m.key ∉ ks)))
    (hc : r'.slots.cells = r.slots.cells.map fun c => if c ∈ ks then .no else c) :
    r'.report = r.report.without ks := by
  refine Report.ext_has (fun m => ?_) ?_ rfl rfl
  · rw [Report.has_without, has_report, has_report]
    exact hm m
  · apply Vector.toList_inj.1
    rw [keycodes_without, ← hc, report, Slots.toList_usages]

theorem report_unregister (hs : r.slots.Tidy) (k : KeyCode) :
    (KeyHost.unregister k r).report = r.report.without [k] := by
  refine report_eq_without (fun m => ?_) ?_
  · rw [has_unregister]
    simp [eq_comm]
  · rw [cells_unregister hs]
    simp

theorem report_foldl_unregister (ks : List KeyCode) {r : Reporter} (hs : r.slots.Tidy) :
    (ks.foldl (fun h k => KeyHost.unregister k h) r).report = r.report.without ks := by
  induction ks generalizing r with
  | nil => exact (Report.without_nil _).symm
  | cons k ks ih =>
    rw [List.foldl_cons, ih (tidy_unregister hs k), report_unregister hs, Report.without_without]
    rfl

/-- Unregistering a chord takes out its keys. -/
theorem report_unregisterChord (hs : r.slots.Tidy) (c : Chord) :
    (KeyHost.unregisterChord c r).report = r.report.without c.keys := by
  rw [KeyHost.unregisterChord, report_foldl_unregister _ (tidy_unregister hs _), report_unregister hs,
    Report.without_without]
  rfl

/-! ## Tapping -/

/-- Where a key is taken out anyway, it makes no difference to register it before. -/
theorem without_register (hk : k ∈ ks) (r : Reporter) :
    (KeyHost.register k r).report.without ks = r.report.without ks := by
  refine Report.ext_has (fun m => ?_) ?_ rfl rfl
  · rw [Report.has_without, Report.has_without, has_report, has_report, has_register]
    by_cases hm : k = m.key
    · simp [← hm, hk]
    · simp [hm]
  · apply Vector.toList_inj.1
    rw [keycodes_without, keycodes_without, show (KeyHost.register k r).slots = (r.hold k).slots from slots_send _]
    congr 1
    unfold hold
    split
    · rfl
    · split
      · rfl
      · split
        · rfl
        · exact Slots.map_replace (by simp [hk]) _

theorem without_foldl_register {js : List KeyCode} (hj : ∀ k ∈ js, k ∈ ks) (r : Reporter) :
    (js.foldl (fun h k => KeyHost.register k h) r).report.without ks = r.report.without ks := by
  induction js generalizing r with
  | nil => rfl
  | cons k js ih =>
    rw [List.foldl_cons, ih fun j hj' => hj j (List.mem_cons_of_mem _ hj'), without_register (hj k (List.mem_cons_self ..))]

/-- A tap takes the keys of its chord out, those that were registered before it included. -/
theorem report_tap (hs : r.slots.Tidy) (c : Chord) : (KeyHost.tap c r).report = r.report.without c.keys := by
  have hkey : c.key ∈ c.keys := List.mem_cons_self ..
  have hmods : ∀ k ∈ KeyHost.comboKeys c.mods, k ∈ c.keys := fun k hk => List.mem_cons_of_mem _ hk
  rw [KeyHost.tap, report_unregisterChord (tidy_registerChord hs c), KeyHost.registerChord, without_register hkey,
    without_foldl_register hmods]

/-- Taking out keys changes nothing exactly if none of them is registered. -/
theorem without_eq_self_iff (hs : r.slots.Tidy) : r.report.without ks = r.report ↔ ∀ k ∈ ks, ¬ r.registered k := by
  constructor
  · intro he k hk hreg
    cases hmod : k.modifier? with
    | some m =>
      obtain rfl := KeyCode.eq_key_of_modifier? hmod
      have hhas := congrArg (Report.has · m) he
      simp only [Report.has_without, has_report, (registered_key m).1 hreg, hk] at hhas
      simp at hhas
    | none =>
      obtain ⟨h0, hin⟩ := (registered_plain hmod).1 hreg
      -- the slot of the key would be free
      have hshown : k.usage ∈ (r.report.without ks).keycodes.toList := by
        rw [he, report, Slots.toList_usages]
        exact List.mem_map_of_mem hin
      rw [keycodes_without] at hshown
      obtain ⟨d, hd, hu⟩ := List.mem_map.1 hshown
      obtain ⟨c, _, hc⟩ := List.mem_map.1 hd
      rw [KeyCode.usage_injective hu] at hc
      split at hc
      · exact h0 hc.symm
      · rename_i hne
        exact hne (hc ▸ hk)
  · intro hnone
    refine (report_eq_without (fun m => ?_) ?_).symm
    · by_cases hm : m.key ∈ ks
      · have hoff := hnone m.key hm
        rw [registered_key, Bool.not_eq_true] at hoff
        simp [hoff]
      · simp [hm]
    · refine ((List.map_congr_left fun c hc => ?_).trans (List.map_id _)).symm
      split
      · rename_i hk
        have hoff := hnone c hk
        rw [registered_plain (hs.plain c hc)] at hoff
        by_cases h0 : c = .no
        · exact h0.symm
        · exact absurd ⟨h0, hc⟩ hoff
      · rfl

end Reporter

end ShiftRemap
