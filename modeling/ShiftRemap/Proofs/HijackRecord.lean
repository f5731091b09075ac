import ShiftRemap.Proofs.Untriggered

/-!
# The record of hijacked presses

What the record answers after a position was erased from it or entered (`get?_erase`, `get?_insert?`), and
what one key event does to it: a release erases its position, a press that the filter takes over enters its
position with the key it was taken over for, and every other press leaves the record as it is. None of this
asks what the host is. On a keyboard the presses that are taken over are those of triggers, while the base
layer is the highest one (`Keyboard.takes_press_iff`).
-/

namespace ShiftRemap

namespace HijackedKeys

variable {s s' : HijackedKeys} {p q : Position} {k : KeyCode}

theorem get?_erase : (s.erase p).get? q = if q = p then none else s.get? q := by
  unfold get? erase
  rw [List.find?_filter]
  split
  · rename_i h
    subst h
    simp
  · rename_i h
    congr 2
    funext x
    grind

theorem erase_of_none (h : s.get? p = none) : s.erase p = s := by
  unfold get? at h
  rw [Option.map_eq_none_iff, List.find?_eq_none] at h
  exact congrArg mk (List.filter_eq_self.2 fun x hx => by simpa using h x hx)

/-- The key of one position is exchanged. -/
theorem get?_map (s : HijackedKeys) :
    (mk (s.entries.map fun x => if x.1 = p then (p, k) else x)).get? q =
      (s.get? q).map fun j => if q = p then k else j := by
  -- the map keeps the positions
  have hpos : ((·.1 == q) ∘ fun x : Position × KeyCode => if x.1 = p then (p, k) else x) = (·.1 == q) := by
    funext x
    dsimp only [Function.comp_apply]
    split
    · rename_i h
      rw [h]
    · rfl
  rw [get?, get?, List.find?_map, hpos, Option.map_map, Option.map_map]
  refine Option.map_congr fun x hx => ?_
  obtain rfl : x.1 = q := by simpa using List.find?_some hx
  dsimp only [Function.comp_apply]
  split <;> rfl

theorem get?_append (h : s.get? p = none) :
    (mk (s.entries ++ [(p, k)])).get? q = if q = p then some k else s.get? q := by
  unfold get? at h ⊢
  rw [List.find?_append]
  split
  · rename_i hq
    rw [hq, Option.map_eq_none_iff.1 h]
    simp
  · rename_i hq
    simp [Ne.symm hq]

theorem get?_insert? (h : s.insert? p k = some s') : s'.get? q = if q = p then some k else s.get? q := by
  unfold insert? at h
  split at h
  · rename_i hsome
    cases h
    rw [get?_map]
    split
    · rename_i hq
      obtain ⟨j, hj⟩ := Option.isSome_iff_exists.1 hsome
      rw [hq, hj]
      rfl
    · exact Option.map_id'
  · rename_i hnone
    split at h
    · cases h
      exact get?_append (Option.not_isSome_iff_eq_none.1 hnone)
    · cases h

/-- Only where as many other positions are recorded as there is room for, a position is not entered. -/
theorem exists_insert? (h : (s.erase p).entries.length < capacity) (k : KeyCode) : ∃ s', s.insert? p k = some s' := by
  unfold insert?
  split
  · exact ⟨_, rfl⟩
  · rename_i hnone
    rw [erase_of_none (Option.not_isSome_iff_eq_none.1 hnone)] at h
    exact ⟨_, if_pos h⟩

end HijackedKeys

namespace Remapper

variable {σ : Type} [KeyHost σ] {profile : Profile} {action : Action} {p q : Position} {r : Remapper} {h : σ}

/-- What the filter has done to the record, nothing undoes. -/
theorem hijacked_process (profile : Profile) (action : Action) (e : KeyEvent) (r : Remapper) (h : σ) :
    (r.process profile action e h).remapper.hijacked = (r.filtered profile action e h).2.1.hijacked := by
  rw [process_eq]
  dsimp only
  split
  · rfl
  · exact hijacked_dispatch ..

/-- A release erases its position. -/
theorem hijacked_filter_release (profile : Profile) (action : Action) (p : Position) (r : Remapper) (h : σ) :
    (r.filter profile action (.release p) h).2.1.hijacked = r.hijacked.erase p := by
  cases hk : r.hijacked.get? p with
  | none => rw [filter_release_left rfl hk, HijackedKeys.erase_of_none hk]
  | some k =>
    cases hp : profile.pairs.get? k with
    | none => rw [filter_release_unpaired rfl hk hp]; rfl
    | some pair => rw [filter_release rfl hk hp]; rfl

/-- The press that the filter takes over is that of a trigger. -/
theorem taken_filter_press_iff :
    (r.filter profile action (.press p) h).1 = true ↔ (triggered? profile action h).isSome = true := by
  cases hp : triggered? profile action h with
  | none => rw [filter_press_left rfl hp]; simp
  | some pair => rw [filter_press rfl hp]; simp

/-- Remembering a press is at most a notice to the host. -/
theorem host_remember (p : Position) (k : KeyCode) (r : Remapper) (h : σ) :
    (r.remember p k h).2 = h ∨ (r.remember p k h).2 = KeyHost.note (.tooManyHijacked p) h := by
  unfold remember
  split
  · exact .inl rfl
  · exact .inr rfl

/-- A press enters its position if the filter takes it over and there is room. -/
theorem hijacked_filter_press (profile : Profile) (action : Action) (p : Position) (r : Remapper) (h : σ) :
    (r.filter profile action (.press p) h).2.1.hijacked =
      if (r.filter profile action (.press p) h).1 then (r.hijacked.insert? p (triggerOf action)).getD r.hijacked
      else r.hijacked := by
  cases hp : triggered? profile action h with
  | none =>
    rw [filter_press_left rfl hp]
    rfl
  | some pair =>
    rw [filter_press rfl hp]
    dsimp only [KeyEvent.press]
    unfold remember
    cases r.hijacked.insert? p (triggerOf action) <;> rfl

/-- What a press does to the record. -/
theorem hijacked_process_press (profile : Profile) (action : Action) (p : Position) (r : Remapper) (h : σ) :
    (r.process profile action (.press p) h).remapper.hijacked =
      if (r.filtered profile action (.press p) h).1 then (r.hijacked.insert? p (triggerOf action)).getD r.hijacked
      else r.hijacked := by
  have hprep := hijacked_prepare (.press p) r h
  rw [hijacked_process, filtered, hijacked_filter_press, hprep]

/-- What a release does to the record. -/
theorem hijacked_process_release (profile : Profile) (action : Action) (p : Position) (r : Remapper) (h : σ) :
    (r.process profile action (.release p) h).remapper.hijacked = r.hijacked.erase p :=
  (hijacked_process ..).trans (hijacked_filter_release ..)

/-- The press that the filter takes over triggers a pair. -/
theorem triggers_of_filtered (htaken : (r.filtered profile action (.press p) h).1 = true) :
    (profile.pairs.get? (triggerOf action)).isSome = true := by
  obtain ⟨pair, hpair⟩ := Option.isSome_iff_exists.1 (taken_filter_press_iff.1 htaken)
  rw [get?_of_triggered? hpair]
  rfl

end Remapper

namespace Keyboard

open Remapper

variable {action : Action} {p : Position} {kb : Keyboard}

/-- The filter sees the layers as they were before the press. -/
theorem triggered?_seen (action : Action) (p : Position) (kb : Keyboard) :
    triggered? kb.profile action (kb.seen (.press p)) =
      if kb.highestLayer = kb.profile.baseLayer then kb.profile.pairs.get? (triggerOf action) else none := by
  have hlayer : KeyHost.highestLayer (kb.seen (.press p)) = kb.highestLayer :=
    congrArg Layers.highest (layers_seen kb (.press p))
  rw [triggered?, hlayer]
  simp only [beq_iff_eq]

theorem takes_press_iff :
    kb.takes action (.press p) = true ↔
      kb.highestLayer = kb.profile.baseLayer ∧ (kb.profile.pairs.get? (triggerOf action)).isSome = true := by
  have htaken : kb.takes action (.press p) = true ↔
      (triggered? kb.profile action (kb.seen (.press p))).isSome = true := taken_filter_press_iff
  rw [htaken, triggered?_seen]
  split
  · rename_i hl
    simp [hl]
  · rename_i hl
    simp [hl]

end Keyboard

end ShiftRemap
