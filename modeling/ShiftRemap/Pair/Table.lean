import ShiftRemap.Pair.Basic

/-!
# The pair table

At most `PairTable.capacity` pairs, each found by its trigger, in the order in which they came. A pair is
refused if its trigger is no key or a modifier key, if its trigger is taken, or if the table is full; the
first of these that applies is the error.

Proved here: what `insert` does to the list of pairs (`insert_eq_ok_iff`).
-/

namespace ShiftRemap

/-- The key can trigger a pair. -/
def KeyCode.canTrigger (k : KeyCode) : Bool := k != .no && !k.isModifier

/-- Pairs found by their trigger, oldest first. -/
structure PairTable where
  pairs : List Pair

/-- Why a pair is refused. -/
inductive PairTable.Error
  /-- The trigger is `no` or a modifier key. -/
  | invalidTrigger (key : KeyCode)
  /-- Another pair has this trigger. -/
  | duplicate (key : KeyCode)
  /-- The table holds `capacity` pairs. -/
  | full
  deriving DecidableEq

namespace PairTable

def capacity : Nat := 16

def empty : PairTable := ⟨[]⟩

instance : Inhabited PairTable := ⟨empty⟩

/-- The pair triggered by `k`. -/
def get? (t : PairTable) (k : KeyCode) : Option Pair := t.pairs.find? (·.trigger == k)

def size (t : PairTable) : Nat := t.pairs.length

def insert (t : PairTable) (p : Pair) : Except Error PairTable :=
  if !p.trigger.canTrigger then .error (.invalidTrigger p.trigger)
  else if (t.get? p.trigger).isSome then .error (.duplicate p.trigger)
  else if capacity ≤ t.size then .error .full
  else .ok ⟨t.pairs ++ [p]⟩

/-- The table of a list of pairs, or the error of the first one that is refused. -/
def ofList (ps : List Pair) : Except Error PairTable := ps.foldlM insert empty

theorem get?_eq_none_iff {t : PairTable} {k : KeyCode} :
    t.get? k = none ↔ ∀ p ∈ t.pairs, p.trigger ≠ k := by
  simp [get?]

theorem insert_eq_ok_iff {t t' : PairTable} {p : Pair} :
    t.insert p = .ok t' ↔
      p.trigger.canTrigger = true ∧ t.get? p.trigger = none ∧ t.size < capacity ∧ t'.pairs = t.pairs ++ [p] := by
  cases hc : p.trigger.canTrigger <;> cases hg : t.get? p.trigger <;> cases t' <;>
    simp only [insert, hc, hg] <;> grind [Option.isSome]

theorem foldlM_insert_cons {p : Pair} {ps : List Pair} {t t' : PairTable}
    (h : (p :: ps).foldlM insert t = .ok t') : ∃ u, t.insert p = .ok u ∧ ps.foldlM insert u = .ok t' := by
  rw [List.foldlM_cons] at h
  cases hp : t.insert p with
  | error e =>
    rw [hp] at h
    cases h
  | ok u =>
    rw [hp] at h
    exact ⟨u, rfl, h⟩

end PairTable

end ShiftRemap
