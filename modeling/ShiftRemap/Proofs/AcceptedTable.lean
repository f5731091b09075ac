import ShiftRemap.Proofs.Accepted
import ShiftRemap.Proofs.Filter

/-!
# The table of accepted settings

Settings are checked by one function and put into a table by another, which refuses a pair for reasons of its
own. The two agree: whatever passes the check makes a table, with the pairs in the order in which they were
written, each found by its trigger (`Settings.table_of_check`). The filter applies no modifier but shift, and
that is all that a text can attach to a key (`KeyName.mods_of_parseChars?`), so a hijacked press registers every
modifier that was written (`Chord.Written.has_press`).
-/

namespace ShiftRemap

/-! ## What a text can name -/

/-- What a chord of accepted settings looks like: a key that is no modifier key, alone or with shift. -/
structure Chord.Written (c : Chord) : Prop where
  ne_no : c.key ≠ .no
  notModifier : c.key.isModifier = false
  mods : c.mods = .empty ∨ c.mods = .shift

namespace KeyName

theorem mods_ofAscii (b : UInt8) : (Chord.ofAscii b).mods = .empty ∨ (Chord.ofAscii b).mods = .shift := by
  unfold Chord.ofAscii
  split
  · exact .inr rfl
  · exact .inl rfl

theorem mods_of_atom? {cs : List Char} {c : Chord} (h : atom? cs = some c) : c.mods = .empty ∨ c.mods = .shift := by
  rcases atom?_eq_some_iff.1 h with ht | ⟨_, k, _, rfl⟩
  · obtain ⟨x, _, _, rfl, _⟩ := typed?_eq_some_iff.1 ht
    exact mods_ofAscii _
  · exact .inl rfl

theorem mods_withShift {c : Chord} (h : c.mods = .empty ∨ c.mods = .shift) : c.withShift.mods = .shift := by
  show c.mods.union .shift = .shift
  rcases h with he | he
  · rw [he]
    rfl
  · rw [he]
    rfl

/-- However often shift is added, no text attaches another modifier. -/
theorem mods_of_parseChars? {cs : List Char} {c : Chord} (h : parseChars? cs = some c) :
    c.mods = .empty ∨ c.mods = .shift :=
  @of_parseChars? (fun c => c.mods = .empty ∨ c.mods = .shift) _ _ h (fun _ _ => mods_of_atom?)
    fun _ hc => .inr (mods_withShift hc)

end KeyName

variable {p : Pair} {raw : RawPair}

theorem RawPair.Reads.written (h : raw.Reads p) (htype : p.Typable) : p.normal.Written ∧ p.shifted.Written := by
  obtain ⟨hn, hnm⟩ := KeyCode.canTrigger_iff.1 htype.normal
  obtain ⟨hs, hsm⟩ := KeyCode.canTrigger_iff.1 htype.shifted
  exact ⟨⟨hn, hnm, KeyName.mods_of_parseChars? h.1⟩, ⟨hs, hsm, KeyName.mods_of_parseChars? h.2⟩⟩

/-! ## What the filter applies -/

/-- Shift without a side is left shift. -/
theorem Combo.has_toModifiers_shift (m : Modifier) : Combo.shift.toModifiers.has m = true ↔ m = .leftShift := by
  cases m <;> decide

/-- A hijacked press registers every modifier of the chord that it types. -/
theorem Chord.Written.has_press {held : Bool} (hc : (p.output held).Written) {m : Modifier}
    (hm : (p.output held).mods.toModifiers.has m = true) (r : Reporter) :
    (ShiftFilter.press p held r).mods.has m = true := by
  rcases hc.mods with he | he
  · simp [he] at hm
  · rw [he, Combo.has_toModifiers_shift] at hm
    subst hm
    rw [ShiftFilter.has_press hc.notModifier, Chord.isShifted, he]
    decide

namespace Settings

/-- **Accepted settings make a table.** Settings that pass the check are read without a fault, into one pair for
each pair that is written, in order. The table takes all of them and keeps their order, and it finds each by the
key of its normal chord. Neither chord of a pair is without a key or has a modifier key, none carries a modifier
but shift, and whichever of the two a press types, the filter registers all its modifiers. -/
theorem table_of_check {s : Settings} (h : s.check = .ok ()) :
    ∃ ps table, s.resolve = .ok ps ∧ List.Forall₂ RawPair.Reads s.pairs ps ∧
      PairTable.ofList ps = .ok table ∧ table.size = s.pairs.length ∧ table.pairs = ps ∧
      ∀ p ∈ ps, table.get? p.normal.key = some p ∧ p.normal.Written ∧ p.shifted.Written ∧
        ∀ (held : Bool) (m : Modifier) (r : Reporter), (p.output held).mods.toModifiers.has m = true →
          (ShiftFilter.press p held r).mods.has m = true := by
  obtain ⟨ps, hres, hreads, htab, htype, hnodup⟩ := resolve_of_check h
  refine ⟨ps, ⟨ps⟩, hres, hreads, htab, hreads.length_eq.symm, rfl, fun p hp => ?_⟩
  obtain ⟨raw, _, hraw⟩ : ∃ raw ∈ s.pairs, raw.Reads p := by
    obtain ⟨i, hi, rfl⟩ := List.mem_iff_getElem.1 hp
    have hi' : i < s.pairs.length := hreads.length_eq ▸ hi
    exact ⟨s.pairs[i], List.getElem_mem hi', hreads.get hi' hi⟩
  obtain ⟨hn, hs⟩ := hraw.written (htype p hp)
  refine ⟨PairTable.get?_of_mem hnodup hp, hn, hs, ?_⟩
  intro held m r hm
  have hc : (p.output held).Written := by cases held <;> assumption
  exact hc.has_press hm r

/-- Characters, names in any case, blanks and wrappers. -/
def mixedSettings : Settings where
  pairs := [⟨",", ";"⟩, ⟨" S( / ) ", "S(S(1))"⟩, ⟨"Bspc", "DEL"⟩, ⟨"A", "f24"⟩]

/-- What `mixedSettings` stands for. -/
def mixedPairs : List Pair :=
  [⟨⟨.comma, .empty⟩, ⟨.semicolon, .empty⟩⟩, ⟨.shifted .slash, .shifted .digit1⟩,
    ⟨⟨.backspace, .empty⟩, ⟨.delete, .empty⟩⟩, ⟨.shifted .keyA, ⟨.f24, .empty⟩⟩]

theorem table_of_check_mixedSettings :
    mixedSettings.check = .ok () ∧ mixedSettings.resolve = .ok mixedPairs ∧
      ∃ table, PairTable.ofList mixedPairs = .ok table ∧ table.size = 4 ∧
        table.get? .slash = some ⟨.shifted .slash, .shifted .digit1⟩ ∧
        (ShiftFilter.press ⟨.shifted .slash, .shifted .digit1⟩ true (Reporter.new 1)).mods.has .leftShift = true := by
  have hcheck : mixedSettings.check = .ok () := by decide +kernel
  have hread : mixedSettings.resolve = .ok mixedPairs := by decide +kernel
  obtain ⟨ps, table, hres, _, htab, hsize, _, hall⟩ := table_of_check hcheck
  obtain rfl : ps = mixedPairs := Except.ok.inj (hres.symm.trans hread)
  obtain ⟨hget, _, _, hpress⟩ := hall ⟨.shifted .slash, .shifted .digit1⟩ (by simp [mixedPairs])
  exact ⟨hcheck, hread, table, htab, hsize, hget, hpress true .leftShift (.new 1) (by decide)⟩

end Settings

end ShiftRemap
