import ShiftRemap.Proofs.DanceTable
import ShiftRemap.Proofs.HijackRecord

/-!
# Well-formed runs of a remapper

What a run has done so far says which key is down at a position (`heldAt?`). A run is well formed if presses and
releases alternate at each position, and each release carries the action of its press (`WellFormed`); the ends of
tapping terms and the changes of the host come anywhere. So what every operation keeps, given the operations
before it, holds after a well-formed run (`WellFormed.keeps`). The first thing kept (`Known`) is that the dance
table is orderly and that hijacked presses are recorded only where a key with a chord is down. All this is so on
every host.
-/

namespace ShiftRemap

namespace Remapper

variable {σ : Type}

/-- What an operation makes of the key that is down at a position. -/
def heldStep (p : Position) (held : Option Action) : Op σ → Option Action
  | .event action e => if e.position = p then (if e.pressed then some action else none) else held
  | .finishDance | .onHost _ => held

/-- The action of the key that is down at a position. -/
def heldAt? (p : Position) (done : List (Op σ)) : Option Action := done.foldl (heldStep p) none

/-- A press finds its position up, and a release carries the action of the press before it. -/
def Alternates (done : List (Op σ)) : Op σ → Prop
  | .event action e => heldAt? e.position done = if e.pressed then none else some action
  | .finishDance | .onHost _ => True

instance (done : List (Op σ)) (op : Op σ) : Decidable (Alternates done op) :=
  match op with
  | .event _ _ => inferInstanceAs (Decidable (_ = _))
  | .finishDance | .onHost _ => .isTrue trivial

/-- Presses and releases alternate at each position in what follows on `done`. -/
def WellFormed : List (Op σ) → List (Op σ) → Prop
  | _, [] => True
  | done, op :: ops => Alternates done op ∧ WellFormed (done ++ [op]) ops

instance decWellFormed : ∀ (done ops : List (Op σ)), Decidable (WellFormed done ops)
  | _, [] => .isTrue trivial
  | done, op :: ops =>
    have : Decidable (WellFormed (done ++ [op]) ops) := decWellFormed _ _
    inferInstanceAs (Decidable (Alternates done op ∧ WellFormed (done ++ [op]) ops))

theorem heldAt?_concat (p : Position) (done : List (Op σ)) (op : Op σ) :
    heldAt? p (done ++ [op]) = heldStep p (heldAt? p done) op := by
  rw [heldAt?, List.foldl_append]
  rfl

theorem heldAt?_press (p : Position) (done : List (Op σ)) (action : Action) :
    heldAt? p (done ++ [.event action (.press p)]) = some action := by
  rw [heldAt?_concat]
  exact if_pos rfl

theorem heldAt?_release (p : Position) (done : List (Op σ)) (action : Action) :
    heldAt? p (done ++ [.event action (.release p)]) = none := by
  rw [heldAt?_concat]
  exact if_pos rfl

theorem heldAt?_of_ne {p : Position} {e : KeyEvent} (hne : e.position ≠ p) (done : List (Op σ)) (action : Action) :
    heldAt? p (done ++ [.event action e]) = heldAt? p done := by
  rw [heldAt?_concat]
  exact if_neg hne

namespace WellFormed

variable {done ops ops' : List (Op σ)}

theorem append_iff : WellFormed done (ops ++ ops') ↔ WellFormed done ops ∧ WellFormed (done ++ ops) ops' := by
  induction ops generalizing done with
  | nil => simp [WellFormed]
  | cons op ops ih => rw [List.cons_append, WellFormed, WellFormed, ih, and_assoc, List.append_assoc]; rfl

/-- What every operation keeps, given the operations before it, holds after the run. -/
theorem keeps [KeyHost σ] {profile : Profile} {I : List (Op σ) → Remapper × σ → Prop}
    (step : ∀ {done s op}, op ∈ ops → I done s → Alternates done op → I (done ++ [op]) (apply profile s op))
    {s : Remapper × σ} (h : WellFormed done ops) (hs : I done s) : I (done ++ ops) (run profile s ops) := by
  induction ops generalizing done s with
  | nil => rwa [List.append_nil]
  | cons op ops ih =>
    have hnext := step (List.mem_cons_self ..) hs h.1
    have hrest := ih (fun hop => step (List.mem_cons_of_mem _ hop)) h.2 hnext
    rwa [List.append_assoc] at hrest

end WellFormed

/-! ## What is known of a well-formed run -/

/-- The dance table is orderly, and where a hijacked press is recorded, a key with a chord is down. -/
structure Known (done : List (Op σ)) (r : Remapper) : Prop where
  orderly : Dance.Orderly r.dances
  recorded : ∀ q, (r.hijacked.get? q).isSome = true → ∃ chord, heldAt? q done = some (.key chord)

namespace Known

variable {profile : Profile} {done : List (Op σ)} {r : Remapper} {p : Position} {action : Action}

theorem new : Known ([] : List (Op σ)) {} where
  orderly := Dance.Orderly.nil
  recorded _ h := absurd h Bool.false_ne_true

/-- Where a layer tap is down, nothing is recorded. -/
theorem not_recorded {n : UInt8} {c : Chord} (hk : Known done r) (hheld : heldAt? p done = some (.layerTap n c)) :
    r.hijacked.get? p = none := by
  rw [← Option.not_isSome_iff_eq_none]
  intro hsome
  obtain ⟨chord, hkey⟩ := hk.recorded p hsome
  rw [hheld] at hkey
  cases hkey

variable [KeyHost σ]

theorem press (ht : profile.pairs.get? .no = none) (hk : Known done r)
    (halt : Alternates done (.event action (.press p))) (h : σ) :
    Known (done ++ [.event action (.press p)]) (r.process profile action (.press p) h).remapper := by
  refine ⟨orderly_process hk.orderly profile action (.press p) h, fun q hq => ?_⟩
  have hup : heldAt? p done = none := halt
  by_cases hqp : p = q
  · subst hqp
    rw [heldAt?_press]
    rw [hijacked_process_press] at hq
    split at hq
    · -- no pair is triggered but by a key with a chord
      rename_i htaken
      have htriggers := triggers_of_filtered htaken
      cases action with
      | key chord => exact ⟨chord, rfl⟩
      | none | shortcut _ | layerTap _ _ =>
        have hno : (profile.pairs.get? .no).isSome = true := htriggers
        rw [ht] at hno
        cases hno
    · obtain ⟨chord, hheld⟩ := hk.recorded p hq
      rw [hup] at hheld
      cases hheld
  · rw [heldAt?_of_ne hqp]
    refine hk.recorded q ?_
    rw [hijacked_process_press] at hq
    split at hq
    · cases hins : r.hijacked.insert? p (triggerOf action) with
      | none => rwa [hins] at hq
      | some record => rwa [hins, Option.getD_some, HijackedKeys.get?_insert? hins, if_neg (Ne.symm hqp)] at hq
    · exact hq

theorem release (hk : Known done r) (h : σ) :
    Known (done ++ [.event action (.release p)]) (r.process profile action (.release p) h).remapper := by
  refine ⟨orderly_process hk.orderly profile action (.release p) h, fun q hq => ?_⟩
  rw [hijacked_process_release, HijackedKeys.get?_erase] at hq
  split at hq
  · cases hq
  · rename_i hne
    rw [heldAt?_of_ne (e := .release p) (Ne.symm hne)]
    exact hk.recorded q hq

/-- One operation. -/
theorem step (ht : profile.pairs.get? .no = none) {s : Remapper × σ} {op : Op σ} (hk : Known done s.1)
    (halt : Alternates done op) : Known (done ++ [op]) (apply profile s op).1 := by
  rcases op with ⟨action, p, _ | _⟩ | _ | change
  · exact hk.release s.2
  · exact hk.press ht halt s.2
  · refine ⟨orderly_finishDance hk.orderly s.2, fun q hq => ?_⟩
    rw [heldAt?_concat]
    exact hk.recorded q hq
  · refine ⟨hk.orderly, fun q hq => ?_⟩
    rw [heldAt?_concat]
    exact hk.recorded q hq

/-- A well-formed run from the start. -/
theorem run (ht : profile.pairs.get? .no = none) (host : σ) {ops : List (Op σ)} (hwf : WellFormed [] ops) :
    Known ops (run profile ({}, host) ops).1 :=
  hwf.keeps (I := fun done s => Known done s.1) (fun _ hk halt => hk.step ht halt) new

end Known

end Remapper

end ShiftRemap
