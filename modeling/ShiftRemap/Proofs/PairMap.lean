import ShiftRemap.Proofs.Accepted
import ShiftRemap.Proofs.Untriggered

/-!
# The pair table as an ordered map

Pairs are offered to a table one after the other; a pair that is refused leaves the table as it is
(`PairTable.offer`). Whatever was offered, the table holds the pairs that were taken, in the order in which they came
(`pairs_offerAll`), and it is a map: every table that can be made leads each trigger to the one pair that has it
(`Built.isMapOf`). Why a pair is refused is read off the pairs taken before it (`Refused`, `insert_eq_error_iff`), and a
list makes a table if none of its pairs is refused; otherwise it fails as the first pair that is
(`foldlM_insert_eq_error_iff`).
-/

namespace ShiftRemap

theorem KeyCode.canTrigger_eq_false_iff {k : KeyCode} : k.canTrigger = false ↔ k = .no ∨ k.isModifier = true := by
  rw [← Bool.not_eq_true, canTrigger_iff, not_and_or, not_not, Bool.not_eq_false]

namespace PairTable

variable {t t' : PairTable} {p : Pair} {ps : List Pair} {k : KeyCode} {e : Error}

/-- The table after a pair was offered to it: with the pair, or as it was if the pair is refused. -/
def offer (t : PairTable) (p : Pair) : PairTable := (t.insert p).toOption.getD t

/-- The table after pairs were offered to it one after the other. -/
def offerAll (t : PairTable) (ps : List Pair) : PairTable := ps.foldl offer t

/-- The error with which a pair is refused, if it is. -/
def refusal? (t : PairTable) (p : Pair) : Option Error :=
  match t.insert p with
  | .ok _ => none
  | .error e => some e

/-- What is answered to each of the pairs that are offered one after the other. -/
def refusals (t : PairTable) : List Pair → List (Option Error)
  | [] => []
  | p :: ps => t.refusal? p :: (t.offer p).refusals ps

/-- The pairs that are not refused, of those that are offered one after the other. -/
def taken (t : PairTable) (ps : List Pair) : List Pair := ((ps.zip (t.refusals ps)).filter (·.2 = none)).map Prod.fst

/-! ## One pair -/

/-- Why a pair is refused after the pairs `before` were taken. Each reason is one that comes after the ones above it. -/
inductive Refused (before : List Pair) (p : Pair) : Error → Prop
  | invalidTrigger : p.trigger = .no ∨ p.trigger.isModifier = true → Refused before p (.invalidTrigger p.trigger)
  | duplicate {q : Pair} : p.trigger ≠ .no → p.trigger.isModifier = false → q ∈ before → q.trigger = p.trigger →
      Refused before p (.duplicate p.trigger)
  | full : p.trigger ≠ .no → p.trigger.isModifier = false → (∀ q ∈ before, q.trigger ≠ p.trigger) →
      before.length = capacity → Refused before p .full

/-- A pair is taken and stands at the end, or it is refused and changes nothing. -/
theorem offer_cases (t : PairTable) (p : Pair) :
    t.refusal? p = none ∧ t.insert p = .ok (t.offer p) ∧ (t.offer p).pairs = t.pairs ++ [p] ∨
      ∃ e, t.refusal? p = some e ∧ t.insert p = .error e ∧ t.offer p = t := by
  unfold refusal? offer
  cases h : t.insert p with
  | ok u => exact .inl ⟨rfl, rfl, (insert_eq_ok_iff.1 h).2.2.2⟩
  | error e => exact .inr ⟨e, rfl, rfl, rfl⟩

theorem Built.offer (h : t.Built) (p : Pair) : (t.offer p).Built := by
  rcases t.offer_cases p with ⟨_, hins, _⟩ | ⟨e, _, _, hsame⟩
  · exact h.insert hins
  · rwa [hsame]

theorem Built.nodup (h : t.Built) : (t.pairs.map Pair.trigger).Nodup := by
  induction h with
  | empty => exact List.nodup_nil
  | @insert t t' p _ hins ih =>
    obtain ⟨_, hnew, _, hpairs⟩ := insert_eq_ok_iff.1 hins
    rw [hpairs, List.map_append, List.nodup_append]
    refine ⟨ih, List.nodup_singleton _, ?_⟩
    rintro k hk j hj rfl
    obtain ⟨q, hq, rfl⟩ := List.mem_map.1 hk
    exact get?_eq_none_iff.1 hnew q hq (List.mem_singleton.1 hj)

theorem Built.size_le (h : t.Built) : t.size ≤ capacity := by
  induction h with
  | empty => exact Nat.zero_le _
  | @insert t t' p _ hins _ =>
    obtain ⟨_, _, hroom, hpairs⟩ := insert_eq_ok_iff.1 hins
    rw [size, hpairs, List.length_append]
    exact hroom

theorem insert_eq_error_iff (h : t.Built) : t.insert p = .error e ↔ Refused t.pairs p e := by
  have hle : t.pairs.length ≤ capacity := h.size_le
  constructor
  · intro hins
    unfold insert at hins
    split at hins
    · rename_i hcan
      cases hins
      exact .invalidTrigger (KeyCode.canTrigger_eq_false_iff.1 (by simpa using hcan))
    · rename_i hcan
      obtain ⟨h0, hm⟩ := KeyCode.canTrigger_iff.1 (by simpa using hcan : p.trigger.canTrigger = true)
      split at hins
      · rename_i hdup
        cases hins
        obtain ⟨q, hq⟩ := Option.isSome_iff_exists.1 hdup
        obtain ⟨hmem, htrigger⟩ := mem_of_get? hq
        exact .duplicate h0 hm hmem htrigger
      · rename_i hnew
        split at hins
        · rename_i hfull
          cases hins
          exact .full h0 hm (get?_eq_none_iff.1 (by simpa using hnew)) (Nat.le_antisymm hle hfull)
        · cases hins
  · intro hr
    unfold insert
    cases hr with
    | invalidTrigger hbad =>
      simp [KeyCode.canTrigger_eq_false_iff.2 hbad]
    | @duplicate q h0 hm hq htrigger =>
      have hcan := KeyCode.canTrigger_iff.2 ⟨h0, hm⟩
      have hdup := get?_of_mem h.nodup hq
      rw [htrigger] at hdup
      simp [hcan, hdup]
    | full h0 hm hnew hfull =>
      have hcan := KeyCode.canTrigger_iff.2 ⟨h0, hm⟩
      simp [hcan, get?_eq_none_iff.2 hnew, size, hfull]

theorem insert_eq_ok_iff_not_refused (h : t.Built) :
    t.insert p = .ok t' ↔ (∀ e, ¬ Refused t.pairs p e) ∧ t'.pairs = t.pairs ++ [p] := by
  simp only [← insert_eq_error_iff h]
  rcases t.offer_cases p with ⟨_, hins, hpairs⟩ | ⟨e, _, hins, _⟩
  · rw [← hpairs, hins, Except.ok.injEq]
    constructor
    · rintro rfl
      exact ⟨nofun, rfl⟩
    · rintro ⟨_, he⟩
      exact congrArg mk he.symm
  · simp [hins]

/-! ## All pairs -/

theorem taken_cons (t : PairTable) (p : Pair) (ps : List Pair) :
    t.taken (p :: ps) = if t.refusal? p = none then p :: (t.offer p).taken ps else (t.offer p).taken ps := by
  simp only [taken, refusals, List.zip_cons_cons, List.filter_cons, decide_eq_true_eq]
  split <;> rfl

/-- The table holds what it held before, and behind it the pairs that were taken. -/
theorem pairs_offerAll (t : PairTable) (ps : List Pair) : (t.offerAll ps).pairs = t.pairs ++ t.taken ps := by
  induction ps generalizing t with
  | nil => exact (List.append_nil _).symm
  | cons p ps ih =>
    rw [offerAll, List.foldl_cons, ← offerAll, ih, taken_cons]
    rcases t.offer_cases p with ⟨htaken, _, hpairs⟩ | ⟨e, hrefused, _, hsame⟩
    · rw [if_pos htaken, hpairs, List.append_assoc, List.singleton_append]
    · rw [if_neg (by simp [hrefused]), hsame]

theorem Built.offerAll (h : t.Built) (ps : List Pair) : (t.offerAll ps).Built := by
  induction ps generalizing t with
  | nil => exact h
  | cons p ps ih => exact ih (h.offer p)

theorem foldlM_insert_eq_ok_iff : ps.foldlM insert t = .ok t' ↔ (∀ a ∈ t.refusals ps, a = none) ∧ t' = t.offerAll ps := by
  induction ps generalizing t with
  | nil => simp [refusals, offerAll, pure, Except.pure, eq_comm]
  | cons p ps ih =>
    rw [List.foldlM_cons, refusals, List.forall_mem_cons]
    rcases t.offer_cases p with ⟨htaken, hins, _⟩ | ⟨e, hrefused, hins, _⟩
    · simp only [hins, htaken, true_and]
      exact ih
    · simp [hins, hrefused, bind, Except.bind]

theorem foldlM_insert_eq_error_iff : ps.foldlM insert t = .error e ↔
    ∃ before after, t.refusals ps = before ++ some e :: after ∧ ∀ a ∈ before, a = none := by
  induction ps generalizing t with
  | nil => simp [refusals, pure, Except.pure]
  | cons p ps ih =>
    rw [List.foldlM_cons, refusals]
    rcases t.offer_cases p with ⟨htaken, hins, _⟩ | ⟨e', hrefused, hins, _⟩
    · rw [hins, htaken]
      refine ih.trans ⟨?_, ?_⟩
      · rintro ⟨before, after, heq, hnone⟩
        exact ⟨none :: before, after, by rw [heq, List.cons_append], by simpa using hnone⟩
      · rintro ⟨before, after, heq, hnone⟩
        cases before with
        | nil => cases heq
        | cons a before =>
          exact ⟨before, after, (List.cons.inj heq).2, fun b hb => hnone b (List.mem_cons_of_mem _ hb)⟩
    · rw [hins, hrefused]
      constructor
      · intro he
        cases he
        exact ⟨[], _, rfl, by simp⟩
      · rintro ⟨before, after, heq, hnone⟩
        cases before with
        | nil => cases heq; rfl
        | cons a before =>
          have := hnone a (List.mem_cons_self ..)
          rw [← (List.cons.inj heq).1] at this
          cases this

/-! ## The map -/

/-- The table is the ordered map of some pairs by their triggers. -/
structure IsMapOf (t : PairTable) (ps : List Pair) : Prop where
  /-- The table goes through the pairs in this order. -/
  pairs : t.pairs = ps
  canTrigger : ∀ p ∈ ps, p.trigger ≠ .no ∧ p.trigger.isModifier = false
  nodup : (ps.map Pair.trigger).Nodup
  length_le : ps.length ≤ capacity
  found : ∀ k p, t.get? k = some p ↔ p ∈ ps ∧ p.trigger = k
  missing : ∀ k, t.get? k = none ↔ ∀ p ∈ ps, p.trigger ≠ k

theorem Built.isMapOf (h : t.Built) : t.IsMapOf t.pairs where
  pairs := rfl
  canTrigger p hp := KeyCode.canTrigger_iff.1 (h.canTrigger p hp)
  nodup := h.nodup
  length_le := h.size_le
  found k p := by
    constructor
    · exact mem_of_get?
    · rintro ⟨hp, rfl⟩
      exact get?_of_mem h.nodup hp
  missing _ := get?_eq_none_iff

/-- **An ordered map of the pairs that were taken.** Whatever pairs are offered to a new table, it is the map of those
that were taken, in their order. The next pair is refused for the first reason that there is, which leaves the table as
it is, and without a reason it is taken and comes last. A list makes a table exactly if none of its pairs is refused;
otherwise the error is that of the first one that is. -/
theorem isMapOf_taken (ps : List Pair) :
    let t := empty.offerAll ps
    let taken := empty.taken ps
    t.IsMapOf taken ∧
      (∀ p e, t.insert p = .error e ↔ Refused taken p e) ∧
      (∀ p e, Refused taken p e → empty.offerAll (ps ++ [p]) = t) ∧
      (∀ p t', t.insert p = .ok t' ↔ (∀ e, ¬ Refused taken p e) ∧ t'.pairs = taken ++ [p]) ∧
      (∀ t', ofList ps = .ok t' ↔ (∀ a ∈ empty.refusals ps, a = none) ∧ t' = t) ∧
      ∀ e, ofList ps = .error e ↔
        ∃ before after, empty.refusals ps = before ++ some e :: after ∧ ∀ a ∈ before, a = none := by
  intro t taken
  have hbuilt : t.Built := Built.empty.offerAll ps
  have hpairs : t.pairs = taken := pairs_offerAll empty ps
  rw [← hpairs]
  refine ⟨hbuilt.isMapOf, fun p e => insert_eq_error_iff hbuilt, fun p e hr => ?_,
    fun p t' => insert_eq_ok_iff_not_refused hbuilt, fun t' => foldlM_insert_eq_ok_iff,
    fun e => foldlM_insert_eq_error_iff⟩
  have hins := (insert_eq_error_iff hbuilt).2 hr
  rw [offerAll, List.foldl_append]
  exact congrArg (fun x => x.toOption.getD t) hins

/-- The pair of a letter. -/
def letterPair (k : KeyCode) : Pair := ⟨⟨k, .empty⟩, .shifted k⟩

/-- As many letters as a table takes. -/
def letters : List Pair :=
  [.keyA, .keyB, .keyC, .keyD, .keyE, .keyF, .keyG, .keyH, .keyI, .keyJ, .keyK, .keyL, .keyM, .keyN, .keyO,
    .keyP].map letterPair

/-- Among the letters come a modifier key and a second pair of a letter, and behind them, when the table is full, a
letter that it has, no key, and a new letter. -/
def crowded : List Pair :=
  letterPair .leftShift :: letters.take 2 ++ letterPair .keyA :: letters.drop 2 ++
    [letterPair .keyP, letterPair .no, letterPair .keyQ]

theorem isMapOf_taken_crowded :
    empty.taken crowded = letters ∧ (empty.offerAll crowded).IsMapOf letters ∧
      Refused letters (letterPair .keyQ) .full ∧
      (empty.offerAll crowded).insert (letterPair .keyQ) = .error .full ∧
      empty.offerAll (crowded ++ [letterPair .keyQ]) = empty.offerAll crowded ∧
      ofList crowded = .error (.invalidTrigger .leftShift) ∧
      ofList letters = .ok (empty.offerAll letters) := by
  obtain ⟨hmap, hrefused, hsame, _, _, herror⟩ := isMapOf_taken crowded
  obtain ⟨_, _, _, _, hok, _⟩ := isMapOf_taken letters
  have htaken : empty.taken crowded = letters := by decide +kernel
  rw [htaken] at hmap hrefused hsame
  have hfull : Refused letters (letterPair .keyQ) .full := .full (by decide) (by decide) (by decide) (by decide)
  refine ⟨htaken, hmap, hfull, (hrefused _ _).2 hfull, hsame _ _ hfull, (herror _).2 ?_, (hok _).2 ⟨by decide +kernel, rfl⟩⟩
  exact ⟨[], empty.refusals crowded.tail, rfl, by simp⟩

end PairTable

end ShiftRemap
