import ShiftRemap.Board.Reporter

/-!
# Registered keys

`Reporter.registered r k` says that `r` reports `k`: as a modifier bit, or in a key slot. Both kinds of key
are treated alike, so that each call of a host has one lemma: registering a key adds at most that key
(`registered_register`), unregistering takes away exactly that key (`registered_unregister`), and chords do
so for each of their keys.

Taking away needs that no key is in two slots, and reading the slots needs that no modifier key is in one:
`Slots.Tidy`, which every call keeps. A tidy reporter on which nothing is registered reports the idle report
(`report_eq_idle`).
-/

namespace ShiftRemap

theorem KeyCode.eq_key_of_modifier? {k : KeyCode} {m : Modifier} (h : k.modifier? = some m) : k = m.key := by
  cases k <;> cases h <;> rfl

theorem Modifier.key_inj {m n : Modifier} : m.key = n.key ↔ m = n := by
  refine ⟨fun h => ?_, congrArg key⟩
  have := KeyCode.modifier?_key m
  rw [h, KeyCode.modifier?_key] at this
  exact (Option.some.inj this).symm

theorem KeyCode.modifier?_eq_none {k : KeyCode} (h : k.isModifier = false) : k.modifier? = none := by
  cases hm : k.modifier? with
  | none => rfl
  | some m => rw [isModifier_iff.2 ⟨m, hm⟩] at h; cases h

theorem KeyCode.isModifier_eq_false_iff {k : KeyCode} : k.isModifier = false ↔ k.modifier? = none := by
  refine ⟨modifier?_eq_none, fun hk => Bool.eq_false_iff.2 fun hm => ?_⟩
  obtain ⟨m, hm⟩ := isModifier_iff.1 hm
  rw [hk] at hm
  cases hm

/-! ## Slots -/

namespace Slots

theorem count_replace (a b c : KeyCode) (l : List KeyCode) :
    (l.replace a b).count c + (if a ∈ l ∧ c = a then 1 else 0) =
      l.count c + (if a ∈ l ∧ c = b then 1 else 0) := by
  induction l with
  | nil => simp
  | cons x l ih =>
    rw [List.replace_cons]
    by_cases hx : a = x
    · subst hx
      simp only [BEq.rfl, List.count_cons, List.mem_cons, true_or, true_and, beq_iff_eq]
      simp only [eq_comm (a := c)]
      omega
    · simp only [beq_eq_false_iff_ne.2 hx, List.count_cons, List.mem_cons, hx, false_or]
      omega

/-- What all operations keep of the slots. -/
structure Tidy (s : Slots) : Prop where
  /-- No slot holds a modifier key. -/
  plain : ∀ k ∈ s.cells, k.modifier? = none
  /-- No key is in two slots. -/
  once : ∀ k, k ≠ .no → s.cells.count k ≤ 1

theorem tidy_empty : empty.Tidy where
  plain k hk := by rw [List.eq_of_mem_replicate hk]; rfl
  once k hk := by simp [empty, Ne.symm hk]

theorem mem_place {s : Slots} {j k : KeyCode} (hj : j ≠ .no) :
    j ∈ (s.place k).cells ↔ j ∈ s.cells ∨ .no ∈ s.cells ∧ j = k := by
  have h := count_replace .no k j s.cells
  simp only [hj, and_false, if_false, Nat.add_zero] at h
  rw [place, ← List.count_pos_iff, h, ← List.count_pos_iff (a := j)]
  split <;> rename_i hc <;> simp [hc]

theorem mem_clear {s : Slots} (hs : s.Tidy) {j k : KeyCode} (hj : j ≠ .no) :
    j ∈ (s.clear k).cells ↔ j ∈ s.cells ∧ j ≠ k := by
  have h := count_replace k .no j s.cells
  have h1 := hs.once j hj
  simp only [hj, and_false, if_false, Nat.add_zero] at h
  rw [clear, ← List.count_pos_iff, ← List.count_pos_iff (a := j)]
  by_cases hjk : j = k
  · subst hjk
    have := List.count_pos_iff (a := j) (l := s.cells)
    split at h <;> grind
  · simp [hjk] at h
    simp [h, hjk]

theorem mem_of_mem_clear {s : Slots} {j k : KeyCode} (hj : j ≠ .no) (h : j ∈ (s.clear k).cells) : j ∈ s.cells := by
  have hc := count_replace k .no j s.cells
  simp only [hj, and_false, if_false, Nat.add_zero] at hc
  rw [← List.count_pos_iff, ← hc]
  exact Nat.lt_of_lt_of_le (List.count_pos_iff.2 h) (Nat.le_add_right _ _)

theorem Tidy.place {s : Slots} (hs : s.Tidy) {k : KeyCode} (hk : k.modifier? = none) (hn : k ∉ s.cells) :
    (s.place k).Tidy where
  plain j hj := by
    by_cases h0 : j = .no
    · rw [h0]; rfl
    · rcases (mem_place h0).1 hj with h | ⟨_, rfl⟩
      · exact hs.plain j h
      · exact hk
  once j hj := by
    have h := count_replace .no k j s.cells
    simp only [hj, and_false, if_false, Nat.add_zero] at h
    have h1 := hs.once j hj
    have h0 := List.count_eq_zero.2 hn
    rw [Slots.place, h]
    split
    · rename_i hc
      rw [← hc.2] at h0
      omega
    · exact h1

theorem Tidy.clear {s : Slots} (hs : s.Tidy) (k : KeyCode) : (s.clear k).Tidy where
  plain j hj := by
    by_cases h0 : j = .no
    · rw [h0]; rfl
    · exact hs.plain j ((mem_clear hs h0).1 hj).1
  once j hj := by
    have h := count_replace k .no j s.cells
    simp only [hj, and_false, if_false, Nat.add_zero] at h
    have h1 := hs.once j hj
    rw [Slots.clear]
    exact Nat.le_trans (Nat.le_trans (Nat.le_add_right _ _) (Nat.le_of_eq h)) h1

end Slots

/-! ## The calls of a host -/

namespace Reporter

/-- The key is reported. -/
def registered (r : Reporter) (k : KeyCode) : Prop :=
  match k.modifier? with
  | some m => r.mods.has m = true
  | none => k ≠ .no ∧ k ∈ r.slots.cells

/-- The key is reported once it is registered. -/
def hasRoom (r : Reporter) (k : KeyCode) : Prop :=
  k.modifier? = none → k ≠ .no ∧ (k ∈ r.slots.cells ∨ .no ∈ r.slots.cells)

variable {r : Reporter} {j k : KeyCode}

theorem registered_key (m : Modifier) : r.registered m.key ↔ r.mods.has m = true := by
  rw [registered, KeyCode.modifier?_key]

theorem registered_plain (h : k.modifier? = none) : r.registered k ↔ k ≠ .no ∧ k ∈ r.slots.cells := by
  rw [registered, h]

theorem registered_congr {r' : Reporter} (hm : r'.mods = r.mods) (hs : r'.slots = r.slots) :
    r'.registered k ↔ r.registered k := by
  unfold registered
  rw [hm, hs]

section Send

@[simp] theorem mods_send (r : Reporter) : r.send.mods = r.mods := by
  unfold send; split
  · rfl
  · split <;> rfl

@[simp] theorem slots_send (r : Reporter) : r.send.slots = r.slots := by
  unfold send; split
  · rfl
  · split <;> rfl

@[simp] theorem matrix_send (r : Reporter) : r.send.matrix = r.matrix := by
  unfold send; split
  · rfl
  · split <;> rfl

@[simp] theorem layers_send (r : Reporter) : r.send.layers = r.layers := by
  unfold send; split
  · rfl
  · split <;> rfl

@[simp] theorem report_send (r : Reporter) : r.send.report = r.report := by
  simp only [report, mods_send, slots_send]

/-- After a report was offered, the report last offered is that of the registered keys. -/
theorem last_send (r : Reporter) : r.send.last = r.report := by
  unfold send; split
  · rename_i h; exact h.symm
  · split <;> rfl

end Send

theorem hold_matrix (k : KeyCode) (r : Reporter) : (r.hold k).matrix = r.matrix := by
  unfold hold; split
  · rfl
  · split
    · rfl
    · split <;> rfl

theorem hold_layers (k : KeyCode) (r : Reporter) : (r.hold k).layers = r.layers := by
  unfold hold; split
  · rfl
  · split
    · rfl
    · split <;> rfl

theorem letGo_matrix (k : KeyCode) (r : Reporter) : (r.letGo k).matrix = r.matrix := by
  unfold letGo; split
  · rfl
  · split <;> rfl

theorem letGo_layers (k : KeyCode) (r : Reporter) : (r.letGo k).layers = r.layers := by
  unfold letGo; split
  · rfl
  · split <;> rfl

@[simp] theorem matrix_register (k : KeyCode) (r : Reporter) : (KeyHost.register k r).matrix = r.matrix :=
  (matrix_send _).trans (hold_matrix k r)

@[simp] theorem matrix_unregister (k : KeyCode) (r : Reporter) : (KeyHost.unregister k r).matrix = r.matrix :=
  (matrix_send _).trans (letGo_matrix k r)

@[simp] theorem layers_register (k : KeyCode) (r : Reporter) : (KeyHost.register k r).layers = r.layers :=
  (layers_send _).trans (hold_layers k r)

@[simp] theorem layers_unregister (k : KeyCode) (r : Reporter) : (KeyHost.unregister k r).layers = r.layers :=
  (layers_send _).trans (letGo_layers k r)

/-! ### Registering and unregistering -/

theorem has_register (m : Modifier) :
    (KeyHost.register k r).mods.has m = (r.mods.has m || decide (k = m.key)) := by
  rw [show (KeyHost.register k r).mods = (r.hold k).mods from mods_send _]
  unfold hold
  split
  · rename_i n hn
    rw [Modifiers.has_insert, KeyCode.eq_key_of_modifier? hn]
    simp only [Modifier.key_inj]
  · rename_i hn
    have hk : k ≠ m.key := by rintro rfl; rw [KeyCode.modifier?_key] at hn; cases hn
    simp only [hk, decide_false, Bool.or_false]
    split
    · rfl
    · split <;> rfl

theorem has_unregister (m : Modifier) :
    (KeyHost.unregister k r).mods.has m = (r.mods.has m && !decide (k = m.key)) := by
  rw [show (KeyHost.unregister k r).mods = (r.letGo k).mods from mods_send _]
  unfold letGo
  split
  · rename_i n hn
    rw [Modifiers.has_erase, KeyCode.eq_key_of_modifier? hn]
    simp only [Modifier.key_inj]
  · rename_i hn
    have hk : k ≠ m.key := by rintro rfl; rw [KeyCode.modifier?_key] at hn; cases hn
    simp only [hk, decide_false, Bool.not_false, Bool.and_true]
    split <;> rfl

theorem mem_slots_register (hj : j ≠ .no) :
    j ∈ (KeyHost.register k r).slots.cells ↔
      j ∈ r.slots.cells ∨ j = k ∧ k.modifier? = none ∧ .no ∈ r.slots.cells := by
  rw [show (KeyHost.register k r).slots = (r.hold k).slots from slots_send _]
  unfold hold
  split
  · rename_i m hm
    simp [hm]
  · rename_i hm
    split
    · rename_i hk
      simp only [Slots.holds, List.contains_iff_mem] at hk
      grind
    · split
      · rename_i hf
        simp only [Slots.isFull, Bool.not_eq_eq_eq_not, Bool.not_true, List.contains_eq_mem,
          decide_eq_false_iff_not] at hf
        simp only [hf, and_false, or_false]
        rfl
      · rw [Slots.mem_place hj]
        grind

theorem mem_slots_unregister (hs : r.slots.Tidy) (hj : j ≠ .no) :
    j ∈ (KeyHost.unregister k r).slots.cells ↔ j ∈ r.slots.cells ∧ j ≠ k := by
  rw [show (KeyHost.unregister k r).slots = (r.letGo k).slots from slots_send _]
  unfold letGo
  split
  · rename_i m hm
    have := hs.plain j
    grind
  · split
    · grind
    · exact Slots.mem_clear hs hj

theorem tidy_register (hs : r.slots.Tidy) (k : KeyCode) : (KeyHost.register k r).slots.Tidy := by
  rw [show (KeyHost.register k r).slots = (r.hold k).slots from slots_send _]
  unfold hold
  split
  · exact hs
  · rename_i hm
    split
    · exact hs
    · rename_i hk
      split
      · exact hs
      · exact hs.place hm fun h => hk (.inr (List.contains_iff_mem.2 h))

theorem tidy_unregister (hs : r.slots.Tidy) (k : KeyCode) : (KeyHost.unregister k r).slots.Tidy := by
  rw [show (KeyHost.unregister k r).slots = (r.letGo k).slots from slots_send _]
  unfold letGo
  split
  · exact hs
  · split
    · exact hs
    · exact hs.clear k

/-- Registering a key adds that key, if there is room for it, and nothing else. -/
theorem registered_register : (KeyHost.register k r).registered j ↔ r.registered j ∨ j = k ∧ r.hasRoom k := by
  cases hj : j.modifier? with
  | some m =>
    obtain rfl := KeyCode.eq_key_of_modifier? hj
    have hroom : k = m.key → r.hasRoom k := by rintro rfl; simp [hasRoom, hj]
    simp only [registered_key, has_register, Bool.or_eq_true, decide_eq_true_eq]
    grind
  | none =>
    simp only [registered_plain hj, hasRoom]
    by_cases h0 : j = .no
    · grind
    · rw [mem_slots_register h0]
      grind

/-- Unregistering a key takes away that key and nothing else. -/
theorem registered_unregister (hs : r.slots.Tidy) :
    (KeyHost.unregister k r).registered j ↔ r.registered j ∧ j ≠ k := by
  cases hj : j.modifier? with
  | some m =>
    obtain rfl := KeyCode.eq_key_of_modifier? hj
    simp only [registered_key, has_unregister, Bool.and_eq_true, Bool.not_eq_true', decide_eq_false_iff_not]
    grind
  | none =>
    simp only [registered_plain hj]
    by_cases h0 : j = .no
    · grind
    · rw [mem_slots_unregister hs h0]
      grind

/-- A key that is let go leaves room for itself. -/
theorem hasRoom_unregister (h : r.hasRoom k) : (KeyHost.unregister k r).hasRoom k := by
  intro hm
  obtain ⟨h0, hk⟩ := h hm
  refine ⟨h0, .inr ?_⟩
  rw [show (KeyHost.unregister k r).slots = (r.letGo k).slots from slots_send _]
  unfold letGo
  simp only [hm, h0, if_false]
  have hc := Slots.count_replace k .no .no r.slots.cells
  simp only [Ne.symm h0, and_false, if_false, and_true, Nat.add_zero] at hc
  rw [Slots.clear, ← List.count_pos_iff, hc]
  rcases hk with hk | hk
  · simp [hk]
  · have := List.count_pos_iff.2 hk
    omega

@[simp] theorem registered_note {n : Notice} : (KeyHost.note n r).registered k ↔ r.registered k :=
  registered_congr rfl rfl

theorem slots_eq_empty (hs : r.slots.Tidy) (h : ∀ k, k.modifier? = none → ¬ r.registered k) : r.slots = .empty := by
  apply Slots.ext
  refine (List.eq_replicate_of_mem fun k hk => ?_).trans (by rw [r.slots.length_eq]; rfl)
  have hm := hs.plain k hk
  exact Decidable.byContradiction fun h0 => h k hm ((registered_plain hm).2 ⟨h0, hk⟩)

theorem not_registered_new (n : Nat) (k : KeyCode) : ¬ (Reporter.new n).registered k := by
  unfold registered
  split
  · rw [show (Reporter.new n).mods = .empty from rfl, Modifiers.has_empty]
    exact Bool.false_ne_true
  · exact fun h => h.1 (List.eq_of_mem_replicate h.2)

/-- A tidy reporter on which nothing is registered reports the idle report. -/
theorem report_eq_idle (hs : r.slots.Tidy) (h : ∀ k, ¬ r.registered k) : r.report = .idle := by
  have hm : r.mods = .empty := Modifiers.ext_has fun m => by
    rw [Modifiers.has_empty, Bool.eq_false_iff, ne_eq, ← registered_key]
    exact h m.key
  rw [report, hm, slots_eq_empty hs fun k _ => h k]
  rfl

end Reporter

/-- The left shift bit of a report. -/
def Report.leftShift (r : Report) : Bool := (Modifiers.ofByte r.modifier).has .leftShift

theorem Reporter.leftShift_report (r : Reporter) : r.report.leftShift = r.mods.has .leftShift := rfl

/-! ### Chords -/

/-- The keys that a chord registers. -/
def Chord.keys (c : Chord) : List KeyCode := c.key :: KeyHost.comboKeys c.mods

namespace Reporter

variable {r : Reporter} {j k : KeyCode}

theorem registered_foldl_register :
    ∀ (ks : List KeyCode) (r : Reporter), (ks.foldl (fun h k => KeyHost.register k h) r).registered j →
      r.registered j ∨ j ∈ ks
  | [], _, h => .inl h
  | k :: ks, r, h => by
    rcases registered_foldl_register ks (KeyHost.register k r) h with h | h
    · rcases registered_register.1 h with h | ⟨rfl, _⟩
      · exact .inl h
      · exact .inr (by simp)
    · exact .inr (by simp [h])

theorem registered_foldl_unregister :
    ∀ (ks : List KeyCode) (r : Reporter), r.slots.Tidy →
      ((ks.foldl (fun h k => KeyHost.unregister k h) r).registered j ↔ r.registered j ∧ j ∉ ks)
  | [], _, _ => by simp
  | k :: ks, r, hs => by
    rw [List.foldl_cons, registered_foldl_unregister ks _ (tidy_unregister hs k), registered_unregister hs]
    simp only [List.mem_cons, not_or, and_assoc]

theorem registered_setShift (hs : r.slots.Tidy) {on : Bool} (h : (KeyHost.setShift on r).registered j) :
    r.registered j ∨ on = true ∧ j = .leftShift := by
  cases on with
  | true =>
    rcases registered_register.1 h with h | ⟨h, _⟩
    · exact .inl h
    · exact .inr ⟨rfl, h⟩
  | false => exact .inl ((registered_unregister hs).1 h).1

theorem slots_setShift (on : Bool) (r : Reporter) : (KeyHost.setShift on r).slots = r.slots := by
  cases on
  · exact slots_send _
  · exact slots_send _

theorem has_setShift (on : Bool) : (KeyHost.setShift on r).mods.has .leftShift = on := by
  cases on with
  | true => exact (has_register _).trans (by simp [Modifier.key])
  | false => exact (has_unregister _).trans (by simp [Modifier.key])

theorem has_setShift_of_ne {m : Modifier} (hm : m ≠ .leftShift) (on : Bool) :
    (KeyHost.setShift on r).mods.has m = r.mods.has m := by
  have hne : KeyCode.leftShift ≠ m.key := fun h => hm (Modifier.key_inj.1 h.symm)
  cases on with
  | true => exact (has_register m).trans (by simp [hne])
  | false => exact (has_unregister m).trans (by simp [hne])

theorem registered_registerChord {c : Chord} (h : (KeyHost.registerChord c r).registered j) :
    r.registered j ∨ j ∈ c.keys := by
  rcases registered_register.1 h with h | ⟨rfl, _⟩
  · rcases registered_foldl_register _ _ h with h | h
    · exact .inl h
    · exact .inr (List.mem_cons_of_mem _ h)
  · exact .inr (List.mem_cons_self ..)

theorem registered_unregisterChord (hs : r.slots.Tidy) {c : Chord} :
    (KeyHost.unregisterChord c r).registered j ↔ r.registered j ∧ j ∉ c.keys := by
  rw [KeyHost.unregisterChord, registered_foldl_unregister _ _ (tidy_unregister hs _), registered_unregister hs]
  simp only [Chord.keys, List.mem_cons, not_or, and_assoc]

end Reporter

end ShiftRemap
