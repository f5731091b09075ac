import Mathlib.Logic.ExistsUnique
import ShiftRemap.Proofs.Registered

/-!
# What one call changes of the report

Registering or unregistering a key leaves the report as it is, or changes exactly one place of it
(`Report.OneChange`): the bit of a modifier key, or the slot of any other key. That is `report_hold` for
registering and `report_letGo` for unregistering.
-/

namespace ShiftRemap

namespace Report

/-- The modifier bit is set. -/
def has (r : Report) (m : Modifier) : Bool := (Modifiers.ofByte r.modifier).has m

/-- The reports differ in exactly one place, which is a modifier bit or a key slot. -/
def OneChange (r r' : Report) : Prop :=
  r'.reserved = r.reserved ∧ r'.leds = r.leds ∧
    ((∃! m : Modifier, r'.has m ≠ r.has m) ∧ r'.keycodes = r.keycodes ∨
      r'.modifier = r.modifier ∧ ∃! i : Fin 6, r'.keycodes[i] ≠ r.keycodes[i])

end Report

namespace Modifiers

variable {s : Modifiers} {m : Modifier}

theorem insert_eq_self (h : s.has m = true) : s.insert m = s := by
  apply ext_has
  intro n
  by_cases hn : m = n
  · subst hn; simp [h]
  · simp [hn]

theorem erase_eq_self (h : s.has m = false) : s.erase m = s := by
  apply ext_has
  intro n
  by_cases hn : m = n
  · subst hn; simp [h]
  · simp [hn]

end Modifiers

namespace Slots

variable {a b c : KeyCode} {l : List KeyCode}

/-- Replacing a key in a list sets one place, its first one. -/
theorem replace_eq_set_idxOf (a b : KeyCode) (l : List KeyCode) : l.replace a b = l.set (l.idxOf a) b := by
  induction l with
  | nil => rfl
  | cons x l ih =>
    rw [List.replace_cons, List.idxOf_cons, BEq.comm (a := a)]
    cases x == a with
    | true => rfl
    | false => exact congrArg (x :: ·) ih

theorem exists_set_eq_replace (h : a ∈ l) :
    ∃ (i : Nat) (hi : i < l.length), l[i] = a ∧ l.replace a b = l.set i b :=
  ⟨l.idxOf a, List.idxOf_lt_length_of_mem h, List.getElem_idxOf _, replace_eq_set_idxOf a b l⟩

/-- The keys that are not exchanged stay where they are. -/
theorem getElem?_replace (ha : c ≠ a) (hb : c ≠ b) {i : Nat} : (l.replace a b)[i]? = some c ↔ l[i]? = some c := by
  by_cases hmem : a ∈ l
  · obtain ⟨j, hj, hla, hset⟩ := exists_set_eq_replace (b := b) hmem
    rw [hset, List.getElem?_set]
    split
    · rename_i hij
      subst hij
      simp [hj, hla, Ne.symm ha, Ne.symm hb]
    · rfl
  · rw [List.replace_of_not_mem hmem]

end Slots

namespace Reporter

variable {r r' : Reporter} {k : KeyCode}

theorem has_report (r : Reporter) (m : Modifier) : r.report.has m = r.mods.has m := rfl

theorem getElem_keycodes (r : Reporter) (i : Fin 6) (hi : i.val < r.slots.cells.length) :
    r.report.keycodes[i] = r.slots.cells[i.val].usage := by
  simp [report, Slots.usages]

/-- One modifier bit was changed. -/
theorem oneChange_mods {m : Modifier} (hs : r'.slots = r.slots) (hm : r'.mods.has m ≠ r.mods.has m)
    (hn : ∀ n, n ≠ m → r'.mods.has n = r.mods.has n) : r.report.OneChange r'.report := by
  refine ⟨rfl, rfl, .inl ⟨⟨m, hm, fun n hne => ?_⟩, ?_⟩⟩
  · by_cases h : n = m
    · exact h
    · exact absurd (hn n h) hne
  · simp only [report, hs]

/-- One slot was changed. -/
theorem oneChange_slots {i : Nat} (hi : i < r.slots.cells.length) (hm : r'.mods = r.mods)
    (hs : r'.slots.cells = r.slots.cells.set i k) (hne : r.slots.cells[i] ≠ k) :
    r.report.OneChange r'.report := by
  have hlen : r.slots.cells.length = 6 := r.slots.length_eq
  have hlen' : r'.slots.cells.length = 6 := r'.slots.length_eq
  have hi6 : i < 6 := hlen ▸ hi
  refine ⟨rfl, rfl, .inr ⟨by simp only [report, hm], ⟨i, hi6⟩, ?_, fun j hj => ?_⟩⟩
  · dsimp only
    rw [getElem_keycodes r _ hi, getElem_keycodes r' _ (hlen'.symm ▸ hi6)]
    simp only [hs, List.getElem_set_self]
    intro hu
    exact hne (KeyCode.usage_injective hu).symm
  · by_cases hij : i = j.val
    · exact Fin.ext hij.symm
    · dsimp only at hj
      rw [getElem_keycodes r _ (hlen.symm ▸ j.isLt), getElem_keycodes r' _ (hlen'.symm ▸ j.isLt)] at hj
      simp only [hs, List.getElem_set_ne hij, ne_eq, not_true_eq_false] at hj

/-- Registering a key changes at most one place of the report. -/
theorem report_hold (k : KeyCode) (r : Reporter) :
    (r.hold k).report = r.report ∨ r.report.OneChange (r.hold k).report := by
  unfold hold
  split
  · rename_i m _
    by_cases hm : r.mods.has m = true
    · left
      simp only [report, Modifiers.insert_eq_self hm]
    · right
      refine oneChange_mods (m := m) rfl (by simp [hm]) fun n hn => ?_
      simp [Ne.symm hn]
  · split
    · exact .inl rfl
    · rename_i hk
      split
      · exact .inl rfl
      · rename_i hfull
        right
        have hfree : KeyCode.no ∈ r.slots.cells := by simpa [Slots.isFull] using hfull
        obtain ⟨i, hi, hno, hset⟩ := Slots.exists_set_eq_replace (b := k) hfree
        refine oneChange_slots hi rfl hset ?_
        rw [hno]
        exact fun h => hk (.inl h.symm)

/-- Unregistering a key changes at most one place of the report. -/
theorem report_letGo (k : KeyCode) (r : Reporter) :
    (r.letGo k).report = r.report ∨ r.report.OneChange (r.letGo k).report := by
  unfold letGo
  split
  · rename_i m _
    by_cases hm : r.mods.has m = true
    · right
      refine oneChange_mods (m := m) rfl (by simp [hm]) fun n hn => ?_
      simp [Ne.symm hn]
    · left
      simp only [report, Modifiers.erase_eq_self (by simpa using hm)]
  · split
    · exact .inl rfl
    · rename_i hk
      by_cases hin : k ∈ r.slots.cells
      · right
        obtain ⟨i, hi, hki, hset⟩ := Slots.exists_set_eq_replace (b := .no) hin
        refine oneChange_slots hi rfl hset ?_
        rw [hki]
        exact hk
      · left
        have hsame : r.slots.clear k = r.slots := Slots.ext (List.replace_of_not_mem hin)
        simp only [report, hsame]

end Reporter

end ShiftRemap
