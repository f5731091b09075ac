import Mathlib.Data.List.Dedup
import Mathlib.Data.List.Induction
import Mathlib.Data.List.Infix
import Mathlib.Data.List.Perm.Subperm
import ShiftRemap.Board.Reporter

/-!
# The matrix and its events

What the matrix should record is said by the events alone: a position is down if the latest event there is a press
(`KeyEvent.down`). Events come in any order, presses of positions that are down and releases of positions that are up
among them. What is recorded is always among the positions that are down (`Matrix.Records`). It is all of them as long
as they were never too many, since a press that finds no room comes after as many other positions as there is room for
(`Matrix.Records.held_press`).
-/

namespace ShiftRemap

variable {es : List KeyEvent} {p q : Position} {m : Matrix} {n : Nat}

/-! ## Events -/

namespace KeyEvent

/-- The latest event at a position. -/
def latest? (es : List KeyEvent) (p : Position) : Option KeyEvent := (es.filter (·.position = p)).getLast?

/-- The positions whose latest event is a press, each once. -/
def down (es : List KeyEvent) : List Position :=
  (es.map (·.position)).dedup.filter fun p => latest? es p = some (.press p)

theorem mem_down : p ∈ down es ↔ latest? es p = some (.press p) := by
  rw [down, List.mem_filter, decide_eq_true_iff, and_iff_right_iff_imp, List.mem_dedup]
  intro h
  have hmem := List.mem_of_getLast? h
  exact List.mem_map.2 ⟨_, (List.mem_filter.1 hmem).1, rfl⟩

theorem latest?_concat (es : List KeyEvent) (e : KeyEvent) (p : Position) :
    latest? (es ++ [e]) p = if e.position = p then some e else latest? es p := by
  unfold latest?
  rw [List.filter_append]
  by_cases he : e.position = p <;> simp [he]

theorem mem_down_press : p ∈ down (es ++ [.press q]) ↔ p = q ∨ p ∈ down es := by
  rw [mem_down, mem_down, latest?_concat]
  by_cases h : q = p
  · subst h
    simp [press]
  · simp [press, h, Ne.symm h]

theorem mem_down_release : p ∈ down (es ++ [.release q]) ↔ p ∈ down es ∧ p ≠ q := by
  rw [mem_down, mem_down, latest?_concat]
  by_cases h : q = p
  · subst h
    simp [press, release]
  · simp [release, h, Ne.symm h]

end KeyEvent

open KeyEvent

/-! ## What is recorded -/

namespace Matrix

theorem anyHeld_iff : m.anyHeld = true ↔ ∃ p, p ∈ m.held := by
  rw [anyHeld, Bool.not_eq_true', List.isEmpty_eq_false_iff_exists_mem]

/-- What the matrix records of some events, however many positions are down: some of the positions, each once. -/
structure Records (m : Matrix) (es : List KeyEvent) : Prop where
  nodup : m.held.Nodup
  length_le : m.held.length ≤ capacity
  down : ∀ p ∈ m.held, p ∈ down es

namespace Records

theorem empty : Matrix.empty.Records [] where
  nodup := List.nodup_nil
  length_le := Nat.zero_le _
  down _ hp := absurd hp List.not_mem_nil

theorem press (h : m.Records es) (p : Position) : ((m.press? p).getD m).Records (es ++ [.press p]) := by
  have hold (q : Position) (hq : q ∈ m.held) : q ∈ KeyEvent.down (es ++ [.press p]) :=
    mem_down_press.2 (.inr (h.down q hq))
  unfold press?
  split
  · exact ⟨h.nodup, h.length_le, hold⟩
  · rename_i hnew
    split
    · rename_i hroom
      refine ⟨?_, ?_, fun q hq => ?_⟩
      · exact List.nodup_append.2 ⟨h.nodup, List.nodup_singleton p, by grind⟩
      · rw [Option.getD_some, List.length_append]
        exact hroom
      · rcases List.mem_append.1 hq with hq | hq
        · exact hold q hq
        · exact mem_down_press.2 (.inl (List.mem_singleton.1 hq))
    · exact ⟨h.nodup, h.length_le, hold⟩

theorem release (h : m.Records es) (p : Position) : (m.release p).Records (es ++ [.release p]) where
  nodup := h.nodup.filter _
  length_le := Nat.le_trans (List.length_filter_le ..) h.length_le
  down q hq := by
    obtain ⟨hq, hne⟩ := mem_held_release.1 hq
    exact mem_down_release.2 ⟨h.down q hq, hne⟩

/-- A press that leaves no more positions down than there is room for is recorded. -/
theorem held_press (h : m.Records es) (hfew : (KeyEvent.down (es ++ [.press p])).length ≤ capacity) :
    q ∈ ((m.press? p).getD m).held ↔ q = p ∨ q ∈ m.held := by
  by_cases hp : p ∈ m.held
  · rw [press?, if_pos hp]
    simp only [Option.getD_some]
    grind
  · -- with the new one, the recorded positions are still among those that are down
    have hsub : p :: m.held ⊆ KeyEvent.down (es ++ [.press p]) := by
      intro q hq
      exact mem_down_press.2 ((List.mem_cons.1 hq).imp_right (h.down q))
    have hle := (List.subperm_of_subset (List.nodup_cons.2 ⟨hp, h.nodup⟩) hsub).length_le
    have hroom : m.held.length < capacity := Nat.lt_of_lt_of_le hle hfew
    rw [press?, if_neg hp, if_pos hroom]
    simp [or_comm]

end Records

end Matrix

namespace Reporter

/-- The reporter after changes of switches, in order. -/
def scan (r : Reporter) (es : List KeyEvent) : Reporter := es.foldl (fun r e => r.updateMatrix e) r

theorem matrix_press (p : Position) (r : Reporter) :
    (r.updateMatrix (.press p)).matrix = (r.matrix.press? p).getD r.matrix := by
  unfold updateMatrix
  simp only [KeyEvent.press, if_true]
  split
  · rename_i hm
    rw [hm]
    rfl
  · rename_i hm
    rw [hm]
    rfl

theorem scan_concat (r : Reporter) (es : List KeyEvent) (e : KeyEvent) :
    r.scan (es ++ [e]) = (r.scan es).updateMatrix e := by
  rw [scan, List.foldl_append]
  rfl

theorem records_scan (n : Nat) (es : List KeyEvent) : ((Reporter.new n).scan es).matrix.Records es := by
  induction es using List.reverseRecOn with
  | nil => exact .empty
  | append_singleton es e ih =>
    rw [scan_concat]
    rcases e with ⟨p, _ | _⟩
    · exact ih.release p
    · exact (matrix_press p _).symm ▸ ih.press p

/-- As long as the positions that are down have room, all of them are recorded. -/
theorem mem_held_scan (hfew : ∀ before, before <+: es → (down before).length ≤ Matrix.capacity) :
    p ∈ ((Reporter.new n).scan es).matrix.held ↔ p ∈ down es := by
  induction es using List.reverseRecOn generalizing p with
  | nil => exact Iff.rfl
  | append_singleton es e ih =>
    have hbefore {p : Position} : p ∈ ((Reporter.new n).scan es).matrix.held ↔ p ∈ down es :=
      ih fun before h => hfew before (h.trans (List.prefix_append ..))
    rw [scan_concat]
    rcases e with ⟨q, _ | _⟩
    · refine Matrix.mem_held_release.trans ?_
      rw [hbefore]
      exact mem_down_release.symm
    · have hpress : p ∈ ((((Reporter.new n).scan es).updateMatrix (.press q))).matrix.held ↔ p = q ∨ p ∈ down es := by
        rw [matrix_press, (records_scan n es).held_press (hfew _ (List.prefix_refl _)), hbefore]
      exact hpress.trans mem_down_press.symm

/-- **What the matrix records.** Whatever events there were, the recorded positions are some of those whose latest
event is a press, each once. If those were never more than the matrix has room for, it records all of them, and a key
counts as held exactly if there is one. -/
theorem held_of_latest_press (n : Nat) (es : List KeyEvent) :
    let r := (Reporter.new n).scan es
    (r.matrix.held.Nodup ∧ r.matrix.held.length ≤ Matrix.capacity ∧
        ∀ p ∈ r.matrix.held, latest? es p = some (.press p)) ∧
      ((∀ before, before <+: es → (down before).length ≤ Matrix.capacity) →
        (∀ p, p ∈ r.matrix.held ↔ latest? es p = some (.press p)) ∧
        (KeyHost.anyKeyHeld r = true ↔ ∃ p, latest? es p = some (.press p))) := by
  intro r
  have hrec : r.matrix.Records es := records_scan n es
  refine ⟨⟨hrec.nodup, hrec.length_le, fun p hp => mem_down.1 (hrec.down p hp)⟩, fun hfew => ?_⟩
  have hall (p : Position) : p ∈ r.matrix.held ↔ latest? es p = some (.press p) := (mem_held_scan hfew).trans mem_down
  exact ⟨hall, Matrix.anyHeld_iff.trans (exists_congr hall)⟩

/-- As many positions go down as the matrix has room for. One of them is pressed again, one that is up is released,
and one more position goes down after another one came up. -/
def fullMatrix : List KeyEvent :=
  (List.range 32).map (fun i => .press ⟨0, .ofNat i⟩) ++
    [.press ⟨0, 7⟩, .release ⟨9, 9⟩, .release ⟨0, 3⟩, .press ⟨1, 0⟩, .press ⟨1, 0⟩]

theorem held_of_latest_press_fullMatrix :
    (∀ before, before <+: fullMatrix → (down before).length ≤ Matrix.capacity) ∧ (down fullMatrix).length = 32 ∧
      ⟨1, 0⟩ ∈ ((Reporter.new 1).scan fullMatrix).matrix.held ∧
      ⟨0, 3⟩ ∉ ((Reporter.new 1).scan fullMatrix).matrix.held ∧
      KeyHost.anyKeyHeld ((Reporter.new 1).scan fullMatrix) = true := by
  have hfew : ∀ before, before <+: fullMatrix → (down before).length ≤ Matrix.capacity := by
    simp only [← List.mem_inits]
    decide +kernel
  obtain ⟨hall, hany⟩ := (held_of_latest_press 1 fullMatrix).2 hfew
  have hnew : latest? fullMatrix ⟨1, 0⟩ = some (.press ⟨1, 0⟩) := by decide +kernel
  have hup : latest? fullMatrix ⟨0, 3⟩ ≠ some (.press ⟨0, 3⟩) := by decide +kernel
  exact ⟨hfew, by decide +kernel, (hall ⟨1, 0⟩).2 hnew, fun h => hup ((hall ⟨0, 3⟩).1 h), hany.2 ⟨⟨1, 0⟩, hnew⟩⟩

end Reporter

end ShiftRemap
