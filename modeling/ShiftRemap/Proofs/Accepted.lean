import Mathlib.Data.List.Nodup
import ShiftRemap.Settings.Check

/-!
# Accepted settings

What a keyboard may rely on when its settings were accepted: every text of a pair names a key that can be
typed (`Pair.Typable`), no two pairs share a trigger, and there is room for all of them, so that the settings
are read into the pairs that were written (`Settings.resolve_of_check`) and make a profile whose table finds
each pair by its trigger (`Settings.profile_of_check`, `PairTable.get?_of_mem`).
-/

namespace ShiftRemap

/-! ## Key names -/

namespace KeyName

theorem mem_of_lookup? {name : String} {k : KeyCode} (h : lookup? name = some k) : (name, k) ∈ table := by
  obtain ⟨l₁, l₂, he, _⟩ := List.lookup_eq_some_iff.1 h
  rw [he]
  exact List.mem_append_right _ (List.mem_cons_self ..)

theorem ne_no_of_lookup? {name : String} {k : KeyCode} (h : lookup? name = some k) : k ≠ .no := by
  have hall : ∀ e ∈ table, e.2 ≠ .no := by decide +kernel
  exact hall (name, k) (mem_of_lookup? h)

theorem typed?_eq_some_iff {cs : List Char} {c : Chord} : typed? cs = some c ↔
    ∃ x, cs = [x] ∧ x.toNat < 128 ∧ Chord.ofAscii x.toUInt8 = c ∧ c.key ≠ .no := by
  constructor
  · intro h
    unfold typed? at h
    split at h
    · rename_i x
      split at h
      · rename_i hascii
        dsimp only at h
        split at h
        · cases h
        · rename_i hno
          cases h
          exact ⟨x, rfl, hascii, rfl, hno⟩
      · cases h
    · cases h
  · rintro ⟨x, rfl, hascii, rfl, hno⟩
    simp only [typed?, if_pos hascii, if_neg hno]

theorem atom?_eq_some_iff {cs : List Char} {c : Chord} : atom? cs = some c ↔
    typed? cs = some c ∨
      (typed? cs = none ∧ ∃ k, lookup? (String.ofList (cs.map Char.toLower)) = some k ∧ c = ⟨k, .empty⟩) := by
  unfold atom?
  cases typed? cs with
  | some d => simp
  | none => simp [Option.map_eq_some_iff, @eq_comm _ _ c]

/-- What holds of atoms and is kept when shift is added holds of every text that is read. -/
theorem of_parseChars? {motive : Chord → Prop} {cs : List Char} {c : Chord} (h : parseChars? cs = some c)
    (hatom : ∀ cs c, atom? cs = some c → motive c) (hwrap : ∀ c, motive c → motive c.withShift) : motive c := by
  induction cs using parseChars?.induct generalizing c with
  | case1 cs inner hu ih =>
    rw [parseChars?_of_unwrap? hu] at h
    obtain ⟨c', hc', rfl⟩ := Option.map_eq_some_iff.1 h
    exact hwrap c' (ih hc')
  | case2 cs hu =>
    rw [parseChars?_of_not_unwrap? hu] at h
    exact hatom _ c h

theorem ne_no_of_atom? {cs : List Char} {c : Chord} (h : atom? cs = some c) : c.key ≠ .no := by
  rcases atom?_eq_some_iff.1 h with ht | ⟨_, k, hk, rfl⟩
  · obtain ⟨_, _, _, _, hno⟩ := typed?_eq_some_iff.1 ht
    exact hno
  · exact ne_no_of_lookup? hk

/-- No text names the absence of a key. -/
theorem ne_no_of_parseChars? {cs : List Char} {c : Chord} (h : parseChars? cs = some c) : c.key ≠ .no :=
  @of_parseChars? (fun c => c.key ≠ .no) _ _ h (fun _ _ => ne_no_of_atom?) fun _ hc => hc

end KeyName

/-! ## Pairs -/

/-- Both chords of the pair have a key, which is no modifier key. -/
structure Pair.Typable (p : Pair) : Prop where
  normal : p.normal.key.canTrigger = true
  shifted : p.shifted.key.canTrigger = true

theorem KeyCode.canTrigger_iff {k : KeyCode} : k.canTrigger = true ↔ k ≠ .no ∧ k.isModifier = false := by
  simp [canTrigger]

theorem Pair.Typable.output {p : Pair} (hp : p.Typable) (held : Bool) : (p.output held).key.canTrigger = true := by
  unfold Pair.output
  split
  · exact hp.shifted
  · exact hp.normal

namespace PairTable

theorem foldlM_insert_eq_ok {ps : List Pair} {t : PairTable} (htype : ∀ p ∈ ps, p.trigger.canTrigger = true)
    (hnodup : ((t.pairs ++ ps).map Pair.trigger).Nodup) (hroom : (t.pairs ++ ps).length ≤ capacity) :
    ps.foldlM insert t = .ok ⟨t.pairs ++ ps⟩ := by
  induction ps generalizing t with
  | nil => simp [pure, Except.pure]
  | cons p ps ih =>
    have hget : t.get? p.trigger = none := by
      rw [get?_eq_none_iff]
      intro q hq he
      rw [List.map_append, List.nodup_append] at hnodup
      exact hnodup.2.2 _ (List.mem_map_of_mem hq) _ (List.mem_map_of_mem (List.mem_cons_self ..)) he
    have hsize : t.size < capacity := by
      simp only [List.length_append, List.length_cons] at hroom
      unfold size
      omega
    have hins : t.insert p = .ok ⟨t.pairs ++ [p]⟩ :=
      insert_eq_ok_iff.2 ⟨htype p (List.mem_cons_self ..), hget, hsize, rfl⟩
    rw [List.foldlM_cons, hins]
    have happ : t.pairs ++ p :: ps = (t.pairs ++ [p]) ++ ps := by simp
    rw [happ] at hnodup hroom ⊢
    exact ih (fun q hq => htype q (List.mem_cons_of_mem _ hq)) hnodup hroom

/-- A table whose triggers differ finds each of its pairs. -/
theorem get?_of_mem {t : PairTable} (hnodup : (t.pairs.map Pair.trigger).Nodup) {p : Pair} (hp : p ∈ t.pairs) :
    t.get? p.trigger = some p := by
  cases hg : t.get? p.trigger with
  | none => exact absurd rfl (get?_eq_none_iff.1 hg p hp)
  | some q =>
    have hq : q ∈ t.pairs := List.mem_of_find?_eq_some hg
    have he : q.trigger = p.trigger := by simpa using List.find?_some hg
    rw [List.inj_on_of_nodup_map hnodup hq hp he]

theorem mem_of_get? {t : PairTable} {k : KeyCode} {p : Pair} (h : t.get? k = some p) :
    p ∈ t.pairs ∧ p.trigger = k :=
  ⟨List.mem_of_find?_eq_some h, by simpa using List.find?_some h⟩

end PairTable

/-! ## Settings -/

/-- The texts of a written pair are those of the pair's chords. -/
def RawPair.Reads (raw : RawPair) (p : Pair) : Prop :=
  KeyName.parse? raw.normal = some p.normal ∧ KeyName.parse? raw.shifted = some p.shifted

namespace Settings

variable {i : Nat} {used : List (KeyCode × Nat)} {raw : RawPair} {rest : List RawPair} {k : KeyCode} {e : Error}

theorem bind_eq_error_iff {α β : Type} {x : Except Error α} {f : α → Except Error β} :
    x >>= f = .error e ↔ x = .error e ∨ ∃ a, x = .ok a ∧ f a = .error e := by
  cases x with
  | error e' => simp [bind, Except.bind]
  | ok a => simp [bind, Except.bind]

theorem bind_eq_ok_iff {α β : Type} {x : Except Error α} {f : α → Except Error β} {b : β} :
    x >>= f = .ok b ↔ ∃ a, x = .ok a ∧ f a = .ok b := by
  cases x with
  | error e' => simp [bind, Except.bind]
  | ok a => simp [bind, Except.bind]

theorem resolveSide_eq_ok_iff {side : Side} {text : String} {c : Chord} :
    resolveSide i side text = .ok c ↔ KeyName.parse? text = some c := by
  unfold resolveSide
  cases KeyName.parse? text <;> simp

theorem resolvePair_eq_ok_iff {p : Pair} : resolvePair i raw = .ok p ↔ raw.Reads p := by
  unfold resolvePair RawPair.Reads
  rw [← @resolveSide_eq_ok_iff i .normal, ← @resolveSide_eq_ok_iff i .shifted]
  cases resolveSide i .normal raw.normal with
  | error e => simp [bind, Except.bind]
  | ok normal =>
    cases resolveSide i .shifted raw.shifted with
    | error e => simp [bind, Except.bind]
    | ok shifted =>
      rcases p with ⟨n, s⟩
      simp [bind, Except.bind, pure, Except.pure]

theorem resolvePair_eq_error_iff : resolvePair i raw = .error e ↔
    (KeyName.parse? raw.normal = none ∧ e = .unknownKey (fieldName i .normal) raw.normal) ∨
      ∃ c, KeyName.parse? raw.normal = some c ∧ KeyName.parse? raw.shifted = none ∧
        e = .unknownKey (fieldName i .shifted) raw.shifted := by
  unfold resolvePair resolveSide
  cases KeyName.parse? raw.normal with
  | none => simp [bind, Except.bind, eq_comm]
  | some c => cases KeyName.parse? raw.shifted <;> simp [bind, Except.bind, pure, Except.pure, eq_comm]

/-! ### The check of one pair -/

/-- The last check of the `i`th pair: its trigger is new. -/
def checkTrigger (i : Nat) (used : List (KeyCode × Nat)) (k : KeyCode) : Except Error KeyCode :=
  match used.lookup k with
  | some first => .error (.duplicateTrigger (fieldName i .normal) k first)
  | none => .ok k

/-- The check of the `i`th pair, which gives its trigger. -/
def checkPair (i : Nat) (used : List (KeyCode × Nat)) (raw : RawPair) : Except Error KeyCode := do
  let p ← resolvePair i raw
  checkSide i .normal p.normal
  checkSide i .shifted p.shifted
  checkTrigger i used p.trigger

theorem checkFrom_cons_eq (i : Nat) (used : List (KeyCode × Nat)) (raw : RawPair) (rest : List RawPair) :
    checkFrom i used (raw :: rest) = checkPair i used raw >>= fun k => checkFrom (i + 1) ((k, i) :: used) rest := by
  simp only [checkFrom, checkPair, bind_assoc]
  refine bind_congr fun p => bind_congr fun _ => bind_congr fun _ => ?_
  unfold checkTrigger
  cases used.lookup p.trigger <;> rfl

theorem checkSide_eq_error_iff {side : Side} {c : Chord} :
    checkSide i side c = .error e ↔ c.key.isModifier = true ∧ e = .modifierInPair (fieldName i side) c.key := by
  unfold checkSide
  split
  · rename_i hm
    simp [hm, eq_comm]
  · rename_i hm
    simp [hm]

theorem checkSide_eq_ok_iff {side : Side} {c : Chord} {u : Unit} :
    checkSide i side c = .ok u ↔ c.key.isModifier = false := by
  unfold checkSide
  split
  · rename_i hm
    simp [hm]
  · rename_i hm
    simp [hm]

theorem checkTrigger_eq_error_iff : checkTrigger i used k = .error e ↔
    ∃ first, used.lookup k = some first ∧ e = .duplicateTrigger (fieldName i .normal) k first := by
  unfold checkTrigger
  cases used.lookup k <;> simp [eq_comm]

theorem checkTrigger_eq_ok_iff {k' : KeyCode} : checkTrigger i used k = .ok k' ↔ used.lookup k = none ∧ k = k' := by
  unfold checkTrigger
  cases used.lookup k <;> simp

/-- A pair passes if both texts are chords without a modifier key and the trigger is new. -/
theorem checkPair_eq_ok_iff : checkPair i used raw = .ok k ↔ ∃ p, raw.Reads p ∧ p.normal.key.isModifier = false ∧
    p.shifted.key.isModifier = false ∧ used.lookup p.trigger = none ∧ p.trigger = k := by
  simp only [checkPair, bind_eq_ok_iff, resolvePair_eq_ok_iff, checkSide_eq_ok_iff, checkTrigger_eq_ok_iff, exists_const]

/-- What the check of one pair has found when it goes on to the next. -/
theorem checkFrom_cons (h : checkFrom i used (raw :: rest) = .ok ()) :
    ∃ p, raw.Reads p ∧ p.Typable ∧ used.lookup p.trigger = none ∧
      checkFrom (i + 1) ((p.trigger, i) :: used) rest = .ok () := by
  rw [checkFrom_cons_eq, bind_eq_ok_iff] at h
  obtain ⟨k, hk, hrest⟩ := h
  obtain ⟨p, hreads, hn, hs, hnew, rfl⟩ := checkPair_eq_ok_iff.1 hk
  have hn0 := KeyName.ne_no_of_parseChars? hreads.1
  have hs0 := KeyName.ne_no_of_parseChars? hreads.2
  exact ⟨p, hreads, ⟨KeyCode.canTrigger_iff.2 ⟨hn0, hn⟩, KeyCode.canTrigger_iff.2 ⟨hs0, hs⟩⟩, hnew, hrest⟩

/-! ### The check of all pairs -/

/-- Pairs that pass the check are read without a fault, and their triggers differ. -/
theorem mapM_resolvePair {i : Nat} {used : List (KeyCode × Nat)} {raws : List RawPair}
    (h : checkFrom i used raws = .ok ()) :
    ∃ ps, (raws.zipIdx i).mapM (fun (raw, i) => resolvePair i raw) = .ok ps ∧ List.Forall₂ RawPair.Reads raws ps ∧
      (∀ p ∈ ps, p.Typable ∧ used.lookup p.trigger = none) ∧ (ps.map Pair.trigger).Nodup := by
  induction raws generalizing i used with
  | nil => exact ⟨[], rfl, .nil, by simp, List.nodup_nil⟩
  | cons raw rest ih =>
    obtain ⟨p, hp, htype, hu, hrest⟩ := checkFrom_cons h
    obtain ⟨ps, hps, hreads, hmem, hnodup⟩ := ih hrest
    have hlater : ∀ q ∈ ps, q.trigger ≠ p.trigger ∧ used.lookup q.trigger = none := by
      intro q hq
      have hl := (hmem q hq).2
      rw [List.lookup_cons] at hl
      split at hl
      · cases hl
      · rename_i hne; exact ⟨by simpa using hne, hl⟩
    refine ⟨p :: ps, ?_, .cons hp hreads, ?_, ?_⟩
    · rw [List.zipIdx_cons, List.mapM_cons]
      simp only [resolvePair_eq_ok_iff.2 hp, hps, bind, Except.bind, pure, Except.pure]
    · intro q hq
      rcases List.mem_cons.1 hq with rfl | hq
      · exact ⟨htype, hu⟩
      · exact ⟨(hmem q hq).1, (hlater q hq).2⟩
    · rw [List.map_cons, List.nodup_cons]
      refine ⟨fun hm => ?_, hnodup⟩
      obtain ⟨q, hq, he⟩ := List.mem_map.1 hm
      exact (hlater q hq).1 he

/-- Settings that pass the check are read, and a table is made of their pairs. -/
theorem resolve_of_check {s : Settings} (h : s.check = .ok ()) :
    ∃ ps, s.resolve = .ok ps ∧ List.Forall₂ RawPair.Reads s.pairs ps ∧ PairTable.ofList ps = .ok ⟨ps⟩ ∧
      (∀ p ∈ ps, p.Typable) ∧ (ps.map Pair.trigger).Nodup := by
  have hcheck := h
  unfold check at h
  split at h
  · cases h
  · rename_i hmax
    obtain ⟨ps, hps, hreads, hmem, hnodup⟩ := mapM_resolvePair h
    refine ⟨ps, ?_, hreads, ?_, fun p hp => (hmem p hp).1, hnodup⟩
    · unfold resolve
      rw [hcheck]
      exact hps
    · refine PairTable.foldlM_insert_eq_ok (fun p hp => (hmem p hp).1.normal) hnodup ?_
      rw [show PairTable.empty.pairs ++ ps = ps from rfl, ← hreads.length_eq]
      exact Nat.le_of_not_lt hmax

theorem profile_eq_of_resolve {s : Settings} {ps : List Pair} (hres : s.resolve = .ok ps)
    (htab : PairTable.ofList ps = .ok ⟨ps⟩) : s.profile = .ok ⟨s.baseLayer, s.hostOs, ⟨ps⟩⟩ := by
  unfold profile
  rw [hres]
  simp only [Except.mapError, bind, Except.bind, htab]
  rfl

/-- The profile that accepted settings make. -/
structure Accepted (s : Settings) (profile : Profile) : Prop where
  made : s.profile = .ok profile
  baseLayer : profile.baseLayer = s.baseLayer
  typable : ∀ p ∈ profile.pairs.pairs, p.Typable
  nodup : (profile.pairs.pairs.map Pair.trigger).Nodup

/-- Settings that pass the check make a profile. -/
theorem profile_of_check {s : Settings} (h : s.check = .ok ()) : ∃ profile, s.Accepted profile := by
  obtain ⟨ps, hres, _, htab, htype, hnodup⟩ := resolve_of_check h
  exact ⟨⟨s.baseLayer, s.hostOs, ⟨ps⟩⟩, profile_eq_of_resolve hres htab, rfl, htype, hnodup⟩

/-- Each pair of the profile is that of the text in its place. -/
theorem Accepted.reads {s : Settings} {profile : Profile} (ha : s.Accepted profile) (h : s.check = .ok ()) :
    List.Forall₂ RawPair.Reads s.pairs profile.pairs.pairs := by
  obtain ⟨ps, hres, hreads, htab, _, _⟩ := resolve_of_check h
  obtain rfl := Except.ok.inj (ha.made.symm.trans (profile_eq_of_resolve hres htab))
  exact hreads

/-- A semicolon takes the place of the shifted comma. -/
def commaSettings : Settings where
  pairs := [⟨",", ";"⟩]

theorem check_commaSettings : commaSettings.check = .ok () := by decide +kernel

theorem pairs_commaSettings {profile : Profile} (h : commaSettings.profile = .ok profile) :
    profile.pairs.pairs = [⟨⟨.comma, .empty⟩, ⟨.semicolon, .empty⟩⟩] := by
  have hp : commaSettings.profile.map (·.pairs.pairs) = .ok [⟨⟨.comma, .empty⟩, ⟨.semicolon, .empty⟩⟩] := by
    decide +kernel
  rw [h] at hp
  exact Except.ok.inj hp

end Settings

end ShiftRemap
