import ShiftRemap.Proofs.Strokes

/-!
# Resolving dances

The dances that are left when some are resolved do not depend on the host: each due dance becomes
`Dance.resolved?`, or is dropped because its key is up already (`settle_fst`). What a resolved dance holds
registered is `Dance.keys`; resolving registers nothing that no dance left behind holds
(`registered_settle`), and undoing lets go of exactly these keys (`registered_undo`).
-/

namespace ShiftRemap

namespace Dance

/-- The dance with the outcome that its taps give it now. -/
def classified (d : Dance) : Dance :=
  { d with outcome? := some (Outcome.classify d.taps d.interrupted d.pressed) }

/-- The dance once it was resolved; `none` if that ends it. -/
def resolved? (d : Dance) : Option Dance :=
  if d.isFinished then some d
  else if d.pressed then some d.classified
  else none

/-- The keys that the dance holds registered. -/
def keys (d : Dance) : List KeyCode :=
  match d.outcome? with
  | some .singleTap | some .doubleTap => d.chord.keys
  | _ => []

variable {d d' : Dance}

theorem position_of_resolved? (h : d.resolved? = some d') : d'.position = d.position := by
  unfold resolved? at h
  split at h
  · cases h; rfl
  · split at h <;> cases h
    rfl

theorem pressed_of_resolved? (h : d.resolved? = some d') : d'.pressed = d.pressed := by
  unfold resolved? at h
  split at h
  · cases h; rfl
  · split at h <;> cases h
    rfl

/-- A resolved dance that is left was finished before, or its key is down. -/
theorem isFinished_of_resolved? (h : d.resolved? = some d') :
    d'.isFinished = true ∧ (d.isFinished = true ∨ d'.pressed = true) := by
  unfold resolved? at h
  split at h
  · rename_i hf
    cases h
    exact ⟨hf, .inl hf⟩
  · split at h <;> cases h
    rename_i hp
    exact ⟨rfl, .inr hp⟩

theorem resolved?_of_isFinished (h : d.isFinished = true) : d.resolved? = some d := if_pos h

theorem isFinished_of_mem_keys {k : KeyCode} (h : k ∈ d.keys) : d.isFinished = true := by
  unfold keys at h
  split at h
  · rename_i ho; simp [isFinished, ho]
  · rename_i ho; simp [isFinished, ho]
  · cases h

section Finish

variable {σ : Type} [KeyHost σ]

/-- The host once the outcome of the dance has begun. -/
def begun (d : Dance) (h : σ) : σ :=
  let o := Outcome.classify d.taps d.interrupted d.pressed
  d.begin o (KeyHost.note (.danceFinished d.position o) h)

theorem finish_of_finished (hf : d.isFinished = true) (h : σ) : d.finish h = (d, false, h) := if_pos hf

theorem finish_of_pressed (hf : d.isFinished = false) (hp : d.pressed = true) (h : σ) :
    d.finish h = (d.classified, false, d.begun h) := by
  unfold finish
  rw [if_neg (by simp [hf])]
  exact if_pos hp

theorem finish_of_released (hf : d.isFinished = false) (hp : d.pressed = false) (h : σ) :
    d.finish h = (d.classified, true, d.classified.undo (d.begun h)) := by
  unfold finish
  rw [if_neg (by simp [hf])]
  exact if_neg (by simp [hp])

theorem release_of_finished (hf : d.isFinished = true) (h : σ) :
    d.release h = ({ d with pressed := false }, true, Dance.undo { d with pressed := false } h) :=
  if_pos hf

theorem release_of_pending (hf : d.isFinished = false) (h : σ) :
    d.release h = ({ d with pressed := false }, false, h) :=
  if_neg (Bool.eq_false_iff.1 hf)

end Finish

theorem finish_fst {σ : Type} [KeyHost σ] (d : Dance) (h : σ) :
    (if (d.finish h).2.1 then none else some (d.finish h).1) = d.resolved? := by
  unfold resolved?
  cases hf : d.isFinished with
  | true => rw [finish_of_finished hf]; rfl
  | false =>
    cases hp : d.pressed with
    | true => rw [finish_of_pressed hf hp]; rfl
    | false => rw [finish_of_released hf hp]; rfl

/-- The dances that are left do not depend on the host. -/
theorem settle_fst {σ : Type} [KeyHost σ] (due : Dance → Bool) (ds : List Dance) (h : σ) :
    (settle due ds h).1 = ds.filterMap fun d => if due d then d.resolved? else some d := by
  induction ds generalizing h with
  | nil => rfl
  | cons d ds ih =>
    rw [List.filterMap_cons]
    unfold settle
    split
    · rename_i hd
      rw [← finish_fst d h]
      cases hf : (d.finish h).2.1 <;> simp [ih, hf]
    · simp [ih]

/-! ## What dances register -/

variable {h : Reporter} {k : KeyCode}

theorem registered_begin {o : Outcome} (hs : h.slots.Tidy) (hk : (d.begin o h).registered k) :
    h.registered k ∨ (o = .singleTap ∨ o = .doubleTap) ∧ k ∈ d.chord.keys := by
  cases o with
  | unknown => exact .inl hk
  | singleTap => exact (Reporter.registered_registerChord hk).imp_right fun hk => ⟨.inl rfl, hk⟩
  | singleHold => exact .inl (Reporter.registered_putLayer.1 hk)
  | doubleTap =>
    rcases Reporter.registered_registerChord hk with hk | hk
    · exact .inl (Reporter.registered_tap hs hk)
    · exact .inr ⟨.inr rfl, hk⟩

theorem registered_begun (hs : h.slots.Tidy) (hk : (d.begun h).registered k) :
    h.registered k ∨ k ∈ d.classified.keys := by
  rcases registered_begin (Reporter.callsKeep_tidy.note hs) hk with hk | ⟨ho, hk⟩
  · exact .inl (Reporter.registered_note.1 hk)
  · refine .inr ?_
    unfold keys classified
    rcases ho with ho | ho <;> simpa only [ho] using hk

theorem registered_undo (hs : h.slots.Tidy) (hk : (d.undo h).registered k) : h.registered k ∧ k ∉ d.keys := by
  unfold undo at hk
  unfold keys
  split at hk <;> rename_i ho <;> simp only [ho]
  · exact (Reporter.registered_unregisterChord hs).1 hk
  · exact (Reporter.registered_unregisterChord hs).1 hk
  · exact ⟨(Reporter.registered_putLayer).1 hk, List.not_mem_nil⟩
  · exact ⟨hk, List.not_mem_nil⟩
  · exact ⟨hk, List.not_mem_nil⟩

theorem registered_finish (hs : h.slots.Tidy) (hk : (d.finish h).2.2.registered k) :
    h.registered k ∨ (d.finish h).2.1 = false ∧ k ∈ (d.finish h).1.keys := by
  cases hf : d.isFinished with
  | true =>
    rw [finish_of_finished hf] at hk ⊢
    exact .inl hk
  | false =>
    cases hp : d.pressed with
    | true =>
      rw [finish_of_pressed hf hp] at hk ⊢
      exact (registered_begun hs hk).imp_right fun hk => ⟨rfl, hk⟩
    | false =>
      -- what the outcome registered is undone at once
      rw [finish_of_released hf hp] at hk
      have hb : (d.begun h).slots.Tidy := Reporter.callsKeep_tidy.begin (Reporter.callsKeep_tidy.note hs)
      obtain ⟨hk, hne⟩ := registered_undo hb hk
      exact .inl ((registered_begun hs hk).resolve_right hne)

/-- Resolving registers nothing that no dance left behind holds. -/
theorem registered_settle {due : Dance → Bool} {ds : List Dance} (hs : h.slots.Tidy)
    (hk : (settle due ds h).2.registered k) : h.registered k ∨ ∃ d ∈ (settle due ds h).1, k ∈ d.keys := by
  induction ds generalizing h with
  | nil => exact .inl hk
  | cons d ds ih =>
    unfold settle at hk ⊢
    split at hk
    · rename_i hd
      simp only [hd, if_true]
      rcases ih (Reporter.callsKeep_tidy.finish hs) hk with hk | ⟨d', hd', hk⟩
      · rcases registered_finish hs hk with hk | ⟨he, hk⟩
        · exact .inl hk
        · exact .inr ⟨_, by simp [he], hk⟩
      · refine .inr ⟨d', ?_, hk⟩
        split
        · exact hd'
        · exact List.mem_cons_of_mem _ hd'
    · rename_i hd
      simp only [hd]
      rcases ih hs hk with hk | ⟨d', hd', hk⟩
      · exact .inl hk
      · exact .inr ⟨d', List.mem_cons_of_mem _ hd', hk⟩

end Dance

end ShiftRemap
