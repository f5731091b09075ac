import ShiftRemap.Proofs.Accepted

/-!
# The first fault of settings

`Fault` says what is wrong with one pair, looking at the pair itself and at the pairs before it: the texts come first,
then the modifier keys, then the trigger. `checkFrom` reports the fault of the first pair that has one
(`Passed.checkFrom_iff`). What it goes on with is that no pair so far has a fault, and that the triggers it has collected
lead to these pairs, each to its own (`Passed`). A pair that repeats a trigger has a fault (`fault_of_repeated`), so
nothing is collected under a trigger twice, and the pair that a duplicate refers to is the only one that it can.

`check_first_fault` puts this together with the count of the pairs, and with reading them, which finds no other fault.
-/

namespace ShiftRemap.Settings

open KeyName

variable {raws rest : List RawPair} {raw : RawPair} {ps : List Pair} {p : Pair} {i j n : Nat}
  {used : List (KeyCode × Nat)} {k : KeyCode} {e : Error} {s : Settings}

/-- The normal text of the `i`th pair is a chord with this key. -/
def TriggerAt (raws : List RawPair) (i : Nat) (k : KeyCode) : Prop :=
  ∃ raw c, raws[i]? = some raw ∧ parse? raw.normal = some c ∧ c.key = k

/-- What is wrong with the `i`th pair. Each fault is one that comes after the ones above it. -/
inductive Fault (raws : List RawPair) (i : Nat) : Error → Prop
  | unknownNormal {raw : RawPair} : raws[i]? = some raw → parse? raw.normal = none →
      Fault raws i (.unknownKey (fieldName i .normal) raw.normal)
  | unknownShifted {raw : RawPair} {c : Chord} : raws[i]? = some raw → parse? raw.normal = some c →
      parse? raw.shifted = none → Fault raws i (.unknownKey (fieldName i .shifted) raw.shifted)
  | modifierNormal {raw : RawPair} {p : Pair} : raws[i]? = some raw → raw.Reads p → p.normal.key.isModifier = true →
      Fault raws i (.modifierInPair (fieldName i .normal) p.normal.key)
  | modifierShifted {raw : RawPair} {p : Pair} : raws[i]? = some raw → raw.Reads p →
      p.normal.key.isModifier = false → p.shifted.key.isModifier = true →
      Fault raws i (.modifierInPair (fieldName i .shifted) p.shifted.key)
  | duplicate {raw : RawPair} {p : Pair} {first : Nat} : raws[i]? = some raw → raw.Reads p →
      p.normal.key.isModifier = false → p.shifted.key.isModifier = false →
      first < i → TriggerAt raws first p.normal.key →
      Fault raws i (.duplicateTrigger (fieldName i .normal) p.normal.key first)

/-- The `i`th pair has the fault, and no pair before it has any. -/
structure FirstFault (raws : List RawPair) (i : Nat) (e : Error) : Prop where
  fault : Fault raws i e
  none_before : ∀ j < i, ∀ e', ¬ Fault raws j e'
  /-- Of the pairs before it, the one that it repeats is the only one with the trigger. -/
  first_unique : ∀ {field : String} {k : KeyCode} {first : Nat}, e = .duplicateTrigger field k first →
    ∀ j < i, TriggerAt raws j k ↔ j = first

/-- Every text is a chord, none has a modifier key, and the normal keys differ. -/
structure Faultless (raws : List RawPair) (ps : List Pair) : Prop where
  reads : List.Forall₂ RawPair.Reads raws ps
  notModifier : ∀ p ∈ ps, p.normal.key.isModifier = false ∧ p.shifted.key.isModifier = false
  nodup : (ps.map fun p => p.normal.key).Nodup

/-! ## One pair -/

/-- No pair before the `i`th has a fault, and the triggers collected are theirs. -/
structure Passed (raws : List RawPair) (i : Nat) (used : List (KeyCode × Nat)) : Prop where
  no_fault : ∀ j < i, ∀ e, ¬ Fault raws j e
  lookup : ∀ k j, used.lookup k = some j ↔ j < i ∧ TriggerAt raws j k

theorem Passed.nil (raws : List RawPair) : Passed raws 0 [] where
  no_fault j hj := absurd hj (Nat.not_lt_zero j)
  lookup k j := by simp

/-- The check of a pair fails with the fault that the pair has. -/
theorem Passed.checkPair_iff (h : Passed raws i used) (hraw : raws[i]? = some raw) :
    checkPair i used raw = .error e ↔ Fault raws i e := by
  simp only [checkPair, bind_eq_error_iff, resolvePair_eq_error_iff, resolvePair_eq_ok_iff, checkSide_eq_error_iff,
    checkSide_eq_ok_iff, checkTrigger_eq_error_iff, exists_const]
  constructor
  · rintro ((⟨hn, rfl⟩ | ⟨c, hn, hs, rfl⟩) | ⟨p, hp, ⟨hm, rfl⟩ | ⟨hm, ⟨hm', rfl⟩ | ⟨hm', first, hf, rfl⟩⟩⟩)
    · exact .unknownNormal hraw hn
    · exact .unknownShifted hraw hn hs
    · exact .modifierNormal hraw hp hm
    · exact .modifierShifted hraw hp hm hm'
    · obtain ⟨hlt, htrigger⟩ := (h.lookup _ _).1 hf
      exact .duplicate hraw hp hm hm' hlt htrigger
  · intro hf
    cases hf with
    | unknownNormal hraw' hn =>
      cases hraw.symm.trans hraw'
      exact .inl (.inl ⟨hn, rfl⟩)
    | unknownShifted hraw' hn hs =>
      cases hraw.symm.trans hraw'
      exact .inl (.inr ⟨_, hn, hs, rfl⟩)
    | modifierNormal hraw' hp hm =>
      cases hraw.symm.trans hraw'
      exact .inr ⟨_, hp, .inl ⟨hm, rfl⟩⟩
    | modifierShifted hraw' hp hm hm' =>
      cases hraw.symm.trans hraw'
      exact .inr ⟨_, hp, .inr ⟨hm, .inl ⟨hm', rfl⟩⟩⟩
    | duplicate hraw' hp hm hm' hlt htrigger =>
      cases hraw.symm.trans hraw'
      exact .inr ⟨_, hp, .inr ⟨hm, .inr ⟨hm', _, (h.lookup _ _).2 ⟨hlt, htrigger⟩, rfl⟩⟩⟩

/-- A pair that passes is collected under its trigger, which is new. -/
theorem Passed.next (h : Passed raws i used) (hraw : raws[i]? = some raw) (hk : checkPair i used raw = .ok k) :
    Passed raws (i + 1) ((k, i) :: used) := by
  have hnone (e : Error) : ¬ Fault raws i e := fun hf => by
    rw [(h.checkPair_iff hraw).2 hf] at hk
    cases hk
  obtain ⟨p, hp, _, _, hnew, rfl⟩ := checkPair_eq_ok_iff.1 hk
  -- the `i`th pair has this trigger, and no pair before it has
  have hhere (k : KeyCode) : TriggerAt raws i k ↔ p.trigger = k := by
    constructor
    · rintro ⟨raw', c, hraw', hc, rfl⟩
      cases hraw.symm.trans hraw'
      cases hp.1.symm.trans hc
      rfl
    · rintro rfl
      exact ⟨raw, p.normal, hraw, hp.1, rfl⟩
  have hbefore (j : Nat) (hj : j < i) : ¬ TriggerAt raws j p.trigger := fun ht => by
    rw [(h.lookup _ _).2 ⟨hj, ht⟩] at hnew
    cases hnew
  constructor
  case no_fault =>
    intro j hj
    rcases Nat.lt_succ_iff_lt_or_eq.1 hj with hlt | rfl
    · exact h.no_fault j hlt
    · exact hnone
  case lookup =>
    intro k j
    rw [List.lookup_cons]
    split
    · rename_i hk
      obtain rfl : k = p.trigger := by simpa using hk
      rw [Option.some.injEq]
      constructor
      · rintro rfl
        exact ⟨Nat.lt_succ_self _, (hhere _).2 rfl⟩
      · rintro ⟨hj, ht⟩
        rcases Nat.lt_succ_iff_lt_or_eq.1 hj with hlt | rfl
        · exact absurd ht (hbefore j hlt)
        · rfl
    · rename_i hk
      have hne : k ≠ p.trigger := by simpa using hk
      rw [h.lookup]
      constructor
      · rintro ⟨hj, ht⟩
        exact ⟨Nat.lt_succ_of_lt hj, ht⟩
      · rintro ⟨hj, ht⟩
        rcases Nat.lt_succ_iff_lt_or_eq.1 hj with hlt | rfl
        · exact ⟨hlt, ht⟩
        · exact absurd ((hhere _).1 ht).symm hne

/-! ## All pairs -/

theorem Fault.lt_length (h : Fault raws i e) : i < raws.length := by
  cases h <;> exact (List.getElem?_eq_some_iff.1 ‹_›).1

/-- Checking on from a pair before which there is no fault finds the first one there is. -/
theorem Passed.checkFrom_iff (h : Passed raws i used) (hrest : raws.drop i = rest) :
    checkFrom i used rest = .error e ↔ ∃ j, Fault raws j e ∧ ∀ m < j, ∀ e', ¬ Fault raws m e' := by
  induction rest generalizing i used with
  | nil =>
    have hlen : raws.length ≤ i := List.drop_eq_nil_iff.1 hrest
    simp only [checkFrom, reduceCtorEq, false_iff]
    rintro ⟨j, hf, _⟩
    exact h.no_fault j (Nat.lt_of_lt_of_le hf.lt_length hlen) e hf
  | cons raw rest ih =>
    have hraw : raws[i]? = some raw := by
      rw [← List.head?_drop, hrest]
      rfl
    rw [checkFrom_cons_eq]
    cases hpair : checkPair i used raw with
    | error e₀ =>
      have hfault := (h.checkPair_iff hraw).1 hpair
      simp only [bind, Except.bind, Except.error.injEq]
      constructor
      · rintro rfl
        exact ⟨i, hfault, h.no_fault⟩
      · rintro ⟨j, hf, hnone⟩
        rcases Nat.lt_trichotomy j i with hlt | rfl | hgt
        · exact absurd hf (h.no_fault j hlt e)
        · exact Except.error.inj (hpair.symm.trans ((h.checkPair_iff hraw).2 hf))
        · exact absurd hfault (hnone i hgt e₀)
    | ok k =>
      refine ih (h.next hraw hpair) ?_
      rw [← List.tail_drop, hrest]
      rfl

/-- Of two pairs with one trigger the later one has a fault. -/
theorem fault_of_repeated (hi : TriggerAt raws i k) (hj : TriggerAt raws j k) (hlt : i < j) :
    ∃ e, Fault raws j e := by
  obtain ⟨raw, c, hraw, hc, rfl⟩ := hj
  cases hs : parse? raw.shifted with
  | none => exact ⟨_, .unknownShifted hraw hc hs⟩
  | some d =>
    have hreads : raw.Reads ⟨c, d⟩ := ⟨hc, hs⟩
    cases hm : c.key.isModifier with
    | true => exact ⟨_, .modifierNormal hraw hreads hm⟩
    | false =>
      cases hm' : d.key.isModifier with
      | true => exact ⟨_, .modifierShifted hraw hreads hm hm'⟩
      | false => exact ⟨_, .duplicate hraw hreads hm hm' hlt hi⟩

/-- Where no pair has a fault, a trigger leads to one pair at most. -/
theorem triggerAt_unique (hnone : ∀ j < n, ∀ e, ¬ Fault raws j e) (hi : i < n) (hj : j < n)
    (hki : TriggerAt raws i k) (hkj : TriggerAt raws j k) : i = j := by
  rcases Nat.lt_trichotomy i j with hlt | heq | hgt
  · obtain ⟨e, hf⟩ := fault_of_repeated hki hkj hlt
    exact absurd hf (hnone j hj e)
  · exact heq
  · obtain ⟨e, hf⟩ := fault_of_repeated hkj hki hgt
    exact absurd hf (hnone i hi e)

theorem firstFault_iff : FirstFault raws i e ↔ Fault raws i e ∧ ∀ j < i, ∀ e', ¬ Fault raws j e' := by
  constructor
  · intro h
    exact ⟨h.fault, h.none_before⟩
  · rintro ⟨hf, hnone⟩
    refine ⟨hf, hnone, ?_⟩
    rintro field k first rfl j hj
    cases hf with
    | duplicate _ _ _ _ hlt htrigger =>
      constructor
      · intro ht
        exact triggerAt_unique hnone hj hlt ht htrigger
      · rintro rfl
        exact htrigger

/-! ## Settings without a fault -/

theorem Faultless.get (h : Faultless raws ps) (hraw : raws[i]? = some raw) : ∃ p, ps[i]? = some p ∧ raw.Reads p := by
  obtain ⟨hi, rfl⟩ := List.getElem?_eq_some_iff.1 hraw
  have hi' : i < ps.length := h.reads.length_eq ▸ hi
  exact ⟨ps[i], List.getElem?_eq_getElem hi', h.reads.get hi hi'⟩

theorem reads_unique {p' : Pair} (h : raw.Reads p) (h' : raw.Reads p') : p = p' := by
  cases p
  cases p'
  cases h.1.symm.trans h'.1
  cases h.2.symm.trans h'.2
  rfl

theorem Faultless.not_fault (h : Faultless raws ps) : ¬ Fault raws i e := by
  intro hf
  cases hf with
  | unknownNormal hraw hn =>
    obtain ⟨p, _, hp⟩ := h.get hraw
    cases hn.symm.trans hp.1
  | unknownShifted hraw _ hs =>
    obtain ⟨p, _, hp⟩ := h.get hraw
    cases hs.symm.trans hp.2
  | modifierNormal hraw hp hm =>
    obtain ⟨p', hmem, hp'⟩ := h.get hraw
    obtain rfl := reads_unique hp hp'
    exact Bool.false_ne_true ((h.notModifier _ (List.mem_of_getElem? hmem)).1.symm.trans hm)
  | modifierShifted hraw hp _ hm =>
    obtain ⟨p', hmem, hp'⟩ := h.get hraw
    obtain rfl := reads_unique hp hp'
    exact Bool.false_ne_true ((h.notModifier _ (List.mem_of_getElem? hmem)).2.symm.trans hm)
  | @duplicate raw p first hraw hp _ _ hlt htrigger =>
    obtain ⟨p', hpi, hp'⟩ := h.get hraw
    obtain rfl := reads_unique hp hp'
    obtain ⟨raw₀, c, hraw₀, hc, hkey⟩ := htrigger
    obtain ⟨q, hqi, hq⟩ := h.get hraw₀
    cases hc.symm.trans hq.1
    -- the two keys stand at different places
    have hlen : i < (ps.map fun p => p.normal.key).length := by
      rw [List.length_map]
      exact (List.getElem?_eq_some_iff.1 hpi).1
    refine List.nodup_iff_getElem?_ne_getElem?.1 h.nodup first i hlt hlen ?_
    rw [List.getElem?_map, List.getElem?_map, hqi, hpi, Option.map_some, Option.map_some, hkey]

theorem check_eq_checkFrom (h : s.pairs.length ≤ 16) : s.check = checkFrom 0 [] s.pairs :=
  if_neg (Nat.not_lt.2 h)

theorem check_eq_error_iff (h : s.pairs.length ≤ 16) : s.check = .error e ↔ ∃ i, FirstFault s.pairs i e := by
  simp only [check_eq_checkFrom h, firstFault_iff]
  exact (Passed.nil s.pairs).checkFrom_iff rfl

theorem faultless_of_check (h : s.check = .ok ()) : ∃ ps, Faultless s.pairs ps := by
  obtain ⟨ps, _, hreads, _, htype, hnodup⟩ := resolve_of_check h
  refine ⟨ps, hreads, fun p hp => ?_, hnodup⟩
  exact ⟨(KeyCode.canTrigger_iff.1 (htype p hp).normal).2, (KeyCode.canTrigger_iff.1 (htype p hp).shifted).2⟩

theorem resolve_eq_error_iff : s.resolve = .error e ↔ s.check = .error e := by
  cases hc : s.check with
  | error e' =>
    have hres : s.resolve = .error e' := by
      rw [resolve, hc]
      rfl
    rw [hres, Except.error.injEq, Except.error.injEq]
  | ok _ =>
    obtain ⟨ps, hres, _⟩ := resolve_of_check hc
    rw [hres]
    simp

/-- **The first fault.** Settings with more than sixteen pairs are refused for their number. Others pass if every text
is a chord, none has a modifier key, and the normal keys differ; otherwise the check fails with the fault of the first
pair that has one. Reading the pairs fails if the check does, with the same fault, and never otherwise. -/
theorem check_first_fault (s : Settings) :
    (16 < s.pairs.length → s.check = .error (.tooManyPairs s.pairs.length 16)) ∧
    (s.pairs.length ≤ 16 → (s.check = .ok () ↔ ∃ ps, Faultless s.pairs ps) ∧
      ∀ e, s.check = .error e ↔ ∃ i, FirstFault s.pairs i e) ∧
    ∀ e, s.resolve = .error e ↔ s.check = .error e := by
  refine ⟨fun h => if_pos h, fun h => ⟨⟨faultless_of_check, ?_⟩, fun e => check_eq_error_iff h⟩,
    fun e => resolve_eq_error_iff⟩
  rintro ⟨ps, hps⟩
  cases hc : s.check with
  | ok _ => rfl
  | error e =>
    obtain ⟨i, hfirst⟩ := (check_eq_error_iff h).1 hc
    exact absurd hfirst.fault hps.not_fault

/-- The third pair repeats the trigger of the first one, and the last one has two faults. -/
def commaTwice : Settings where
  pairs := [⟨"comma", ";"⟩, ⟨"a", "b"⟩, ⟨"S(<)", "c"⟩, ⟨"lsft", "nope"⟩]

theorem check_first_fault_commaTwice :
    let e := Error.duplicateTrigger "shifty.pairs[2].normal" .comma 0
    let manyPairs : Settings := { pairs := List.replicate 17 ⟨"nope", "lsft"⟩ }
    commaTwice.pairs.length ≤ 16 ∧ commaTwice.check = .error e ∧ (∃ i, FirstFault commaTwice.pairs i e) ∧
      commaTwice.resolve = .error e ∧ 16 < manyPairs.pairs.length ∧ manyPairs.check = .error (.tooManyPairs 17 16) := by
  intro e manyPairs
  have hlen : commaTwice.pairs.length ≤ 16 := by decide
  have hmany : 16 < manyPairs.pairs.length := by decide
  have hcheck : commaTwice.check = .error e := by decide +kernel
  obtain ⟨_, hfirst, hresolve⟩ := check_first_fault commaTwice
  exact ⟨hlen, hcheck, ((hfirst hlen).2 e).1 hcheck, (hresolve e).2 hcheck, hmany, (check_first_fault manyPairs).1 hmany⟩

end ShiftRemap.Settings
