import ShiftRemap.Proofs.ActiveLayers
import ShiftRemap.Proofs.Strokes

/-!
# Held layers

A dance that turned out to be a hold of its layer stays one until its own key is released (`mem_holders_run`),
but its layer does not stay on as long: several keys can hold one layer, and the first of them to be released
switches it off for all. A hold is dropped by the release of its layer tap and by nothing else
(`holdChange?_eq_dropped_iff`). Whether a layer is on is decided by the last change of its holds (`isActive_run`), so a
held layer is on except after the release of another hold of it, until the next hold of it begins
(`held_layer_active_iff`). In `sharedLayer` two keys hold one layer.
-/

namespace ShiftRemap.Keyboard

open Dance Remapper

variable {kb : Keyboard} {d : Dance} {n : UInt8} {op : Op} {ops : List Op}

/-! ## The end of a hold -/

/-- The operation releases a layer tap at the position, and the filter does not take the release for that of a hijacked
press. -/
def ReleasesTap (p : Position) (op : Op) (kb : Keyboard) : Prop :=
  ∃ m c, op = .key (.layerTap m c) (.release p) ∧ kb.takes (.layerTap m c) (.release p) = false

/-- A hold of a layer lasts until its layer tap is released. -/
theorem mem_holders_apply_iff (ho : Orderly kb.remapper.dances) (hd : d ∈ kb.remapper.holders n) :
    d ∈ (kb.apply op).remapper.holders n ↔ ¬ kb.ReleasesTap d.position op := by
  obtain ⟨hmem, hhold⟩ := mem_holders.1 hd
  constructor
  · rintro hstays ⟨m, c, rfl, hleft⟩
    have hends := (processKey_release_finished ho hmem (isFinished_of_holds hhold) hleft).2 n d
    exact (hends.1 hstays).2 rfl
  · intro hno
    cases op with
    | key action e =>
      obtain ⟨p, _ | _⟩ := e
      · rcases release_cases ho action p with ⟨_, hh⟩ | ⟨m, c, rfl, hleft, x, hx, rfl, hfin⟩
        · exact (hh n d).2 hd
        · refine ((processKey_release_finished ho hx hfin hleft).2 n d).2 ⟨hd, fun he => hno ⟨m, c, ?_, ?_⟩⟩
          · rw [he]
            rfl
          · rw [he]
            exact hleft
      · exact (mem_holders_press ho).2 hd
    | setLayer m => exact hd
    | finishDance => exact mem_holders.2 ⟨(mem_finishDance_of_holds hhold).2 (.inl hmem), hhold⟩
    | receive m => exact hd

theorem mem_holders_run (ho : Orderly kb.remapper.dances) (hd : d ∈ kb.remapper.holders n)
    (hops : ∀ action, Op.key action (.release d.position) ∉ ops) : d ∈ (kb.run ops).remapper.holders n := by
  induction ops generalizing kb with
  | nil => exact hd
  | cons op ops ih =>
    refine ih (orderly_apply ho op) ((mem_holders_apply_iff ho hd).2 ?_) fun action hmem => ?_
    · rintro ⟨m, c, rfl, _⟩
      exact hops _ (List.mem_cons_self ..)
    · exact hops action (List.mem_cons_of_mem _ hmem)

/-- Holds are dropped by the releases of their layer taps, and by nothing else. -/
theorem holdChange?_eq_dropped_iff (ho : Orderly kb.remapper.dances) :
    kb.holdChange? n op = some .dropped ↔ ∃ x ∈ kb.remapper.holders n, kb.ReleasesTap x.position op := by
  constructor
  · intro h
    obtain ⟨x, hx, hgone⟩ : ∃ x ∈ kb.remapper.holders n, x ∉ (kb.apply op).remapper.holders n := by
      unfold holdChange? at h
      split at h
      · cases h
      · split at h
        · assumption
        · cases h
    refine ⟨x, hx, ?_⟩
    by_contra hno
    exact hgone ((mem_holders_apply_iff ho hx).2 hno)
  · rintro ⟨x, hx, hrel⟩
    have hgone : x ∉ (kb.apply op).remapper.holders n := fun hmem => (mem_holders_apply_iff ho hx).1 hmem hrel
    obtain ⟨m, c, rfl, _⟩ := hrel
    rcases isActive_processKey ho (.layerTap m c) (.release x.position) n with ⟨hsame, _⟩ | ⟨hdrop, _⟩
    · exact absurd ((holders_of_no_change hsame x).2 hx) hgone
    · exact hdrop

/-! ## The last change decides -/

/-- The changes of the holds of a layer in a run, the oldest first. -/
def holdChanges (n : UInt8) : Keyboard → List Op → List HoldChange
  | _, [] => []
  | kb, op :: ops => (kb.holdChange? n op).toList ++ holdChanges n (kb.apply op) ops

/-- A run that sets no layer leaves a layer on if the last change of its holds began one, off if it ended one, and as it was
if there was no change. -/
theorem isActive_run (ho : Orderly kb.remapper.dances) (hset : ∀ m, Op.setLayer m ∉ ops) (hn : n.toNat < layerCount) :
    (kb.run ops).reporter.layers.isActive n =
      match (holdChanges n kb ops).getLast? with
      | some .taken => true
      | some .dropped => false
      | none => kb.reporter.layers.isActive n := by
  induction ops generalizing kb with
  | nil => rfl
  | cons op ops ih =>
    have hop : ∀ m, op ≠ .setLayer m := fun m he => hset m (he ▸ List.mem_cons_self ..)
    have hrest := ih (orderly_apply ho op) fun m hmem => hset m (List.mem_cons_of_mem _ hmem)
    rw [run_cons, hrest, holdChanges, List.getLast?_append]
    cases (holdChanges n (kb.apply op) ops).getLast? with
    | some c => cases c <;> rfl
    | none =>
      dsimp only
      rw [isActive_apply ho hop hn]
      cases kb.holdChange? n op <;> rfl

/-- **A held layer is on unless another hold of it was released last.** Let a dance turn out to be a hold of its layer,
and its key stay down. Then it stays a hold of the layer whatever else is pressed, finished or released meanwhile; the
layer is on if and only if no other hold of it was dropped after the last one that began; and the holds that are dropped
are those of other keys, at the release of their layer taps. -/
theorem held_layer_active_iff (profile : Profile) (capacity : Nat) {before after : List Op} {op : Op} {d : Dance}
    (hn : d.layer.toNat < layerCount)
    (hnew : d ∉ ((Keyboard.new profile capacity).run before).remapper.holders d.layer)
    (hd : d ∈ ((Keyboard.new profile capacity).run (before ++ [op])).remapper.holders d.layer)
    (hset : ∀ n, Op.setLayer n ∉ after) (hdown : ∀ action, Op.key action (.release d.position) ∉ after) :
    let held := (Keyboard.new profile capacity).run (before ++ [op])
    d ∈ (held.run after).remapper.holders d.layer ∧
      ((held.run after).reporter.layers.isActive d.layer = true ↔
        (holdChanges d.layer held after).getLast? ≠ some .dropped) ∧
      ∀ earlier e later, after = earlier ++ e :: later →
        ((held.run earlier).holdChange? d.layer e = some .dropped ↔
          ∃ x ∈ (held.run earlier).remapper.holders d.layer, x.position ≠ d.position ∧
            (held.run earlier).ReleasesTap x.position e) := by
  intro held
  have ho : Orderly held.remapper.dances := orderly_run profile capacity _
  have hon : held.reporter.layers.isActive d.layer = true := by
    have hbefore := orderly_run profile capacity before
    rw [run_append, run_cons, run_nil] at hd
    have hop : ∀ m, op ≠ .setLayer m := by
      rintro m rfl
      exact hnew hd
    have htaken : ((Keyboard.new profile capacity).run before).holdChange? d.layer op = some .taken :=
      if_pos ⟨d, hd, hnew⟩
    rw [show held = ((Keyboard.new profile capacity).run before).apply op from run_append ..,
      isActive_apply hbefore hop hn, htaken]
  refine ⟨mem_holders_run ho hd hdown, ?_, ?_⟩
  · rw [isActive_run ho hset hn]
    split <;> simp_all
  · rintro earlier e later rfl
    have hearlier : Orderly (held.run earlier).remapper.dances := by
      rw [show held.run earlier = (Keyboard.new profile capacity).run (before ++ [op] ++ earlier) from
        (run_append ..).symm]
      exact orderly_run profile capacity _
    rw [holdChange?_eq_dropped_iff hearlier]
    refine exists_congr fun x => and_congr_right fun _ => (and_iff_right_of_imp ?_).symm
    -- a release at the position of the dance would have let its own key go
    rintro ⟨m, c, rfl, _⟩ he
    refine hdown (.layerTap m c) ?_
    rw [← he]
    exact List.mem_append_right _ (List.mem_cons_self ..)

/-- Two keys hold layer 1, and the second one is released. -/
def sharedLayer : List Op :=
  [.key (.layerTap 1 { key := .keyZ }) ⟨⟨0, 0⟩, true⟩, .finishDance,
    .key (.layerTap 1 { key := .keyA }) ⟨⟨0, 1⟩, true⟩, .finishDance,
    .key (.layerTap 1 { key := .keyA }) ⟨⟨0, 1⟩, false⟩]

/-- The first key of `sharedLayer`, once its tapping term is over. -/
def firstHold : Dance := ⟨⟨0, 0⟩, 1, { key := .keyZ }, 1, true, false, some .singleHold⟩

theorem held_layer_active_iff_firstHold :
    let held := (Keyboard.new {} 16).run (sharedLayer.take 1 ++ [.finishDance])
    let after := sharedLayer.drop 2
    let shared := held.run (after.take 2)
    let last : Op := .key (.layerTap 1 { key := .keyA }) ⟨⟨0, 1⟩, false⟩
    firstHold ∉ ((Keyboard.new {} 16).run (sharedLayer.take 1)).remapper.holders 1 ∧
      firstHold ∈ held.remapper.holders 1 ∧ (∀ n, Op.setLayer n ∉ after) ∧
      (∀ action, Op.key action (.release firstHold.position) ∉ after) ∧
      holdChanges 1 held after = [.taken, .dropped] ∧
      firstHold ∈ (held.run after).remapper.holders 1 ∧
      ((held.run after).reporter.layers.isActive 1 = true ↔
        (holdChanges 1 held after).getLast? ≠ some .dropped) ∧
      shared.holdChange? 1 last = some .dropped ∧
      ∃ x ∈ shared.remapper.holders 1, x.position ≠ firstHold.position ∧ shared.ReleasesTap x.position last := by
  intro held after shared last
  have hnew : firstHold ∉ ((Keyboard.new {} 16).run (sharedLayer.take 1)).remapper.holders 1 := by decide +kernel
  have hd : firstHold ∈ held.remapper.holders 1 := by decide +kernel
  have hset : ∀ n, Op.setLayer n ∉ after := by simp [after, sharedLayer]
  have hdown : ∀ action, Op.key action (.release firstHold.position) ∉ after := by
    simp [after, sharedLayer, firstHold, KeyEvent.release]
  have hchanges : holdChanges 1 held after = [.taken, .dropped] := by decide +kernel
  have hdrop : shared.holdChange? 1 last = some .dropped := by decide +kernel
  obtain ⟨hstays, hactive, hdropped⟩ := held_layer_active_iff {} 16 (by decide) hnew hd hset hdown
  exact ⟨hnew, hd, hset, hdown, hchanges, hstays, hactive, hdrop, (hdropped (after.take 2) last [] rfl).1 hdrop⟩

/-- A hold does not keep its layer on: in `sharedLayer`, a run of real keys, the layer goes off under the first key. -/
theorem not_held_layers_active :
    ¬ ∀ (profile : Profile) (capacity : Nat) (ops : List Op),
      (Session.new profile capacity).Follows Session.Alternates ops → (∀ n, Op.setLayer n ∉ ops) →
      ∀ d ∈ ((Session.new profile capacity).run ops).keyboard.remapper.dances,
        d.outcome? = some .singleHold → d.layer.toNat < layerCount →
        ((Session.new profile capacity).run ops).IsDown d.position →
        ((Session.new profile capacity).run ops).keyboard.reporter.layers.isActive d.layer = true := by
  intro h
  have hactive := h {} 16 sharedLayer (by decide +kernel) (by simp [sharedLayer]) firstHold (by decide +kernel) rfl
    (by decide) (by decide +kernel)
  have hoff : ((Session.new {} 16).run sharedLayer).keyboard.reporter.layers.isActive 1 = false := by decide +kernel
  exact absurd (hoff.symm.trans hactive) Bool.false_ne_true

end ShiftRemap.Keyboard
