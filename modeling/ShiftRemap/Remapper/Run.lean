import ShiftRemap.Remapper.Basic

/-!
# Runs of a remapper

A remapper on a host of any kind: it is given key events and the ends of tapping terms, and between them the
host may change in any way that is not the remapper's doing.
-/

namespace ShiftRemap

namespace Remapper

/-- An operation on a remapper and its host. -/
inductive Op (σ : Type)
  | event (action : Action) (event : KeyEvent)
  | finishDance
  /-- The host changes on its own. -/
  | onHost (change : σ → σ)

variable {σ : Type} [KeyHost σ]

def apply (profile : Profile) (s : Remapper × σ) : Op σ → Remapper × σ
  | .event action e => let step := s.1.process profile action e s.2; (step.remapper, step.host)
  | .finishDance => s.1.finishDance s.2
  | .onHost change => (s.1, change s.2)

/-- The remapper and its host after a list of operations. -/
def run (profile : Profile) (s : Remapper × σ) (ops : List (Op σ)) : Remapper × σ := ops.foldl (apply profile) s

/-- What every operation keeps of the remapper holds after every run. -/
theorem run_keeps {profile : Profile} {I : Remapper → Prop}
    (process : ∀ {r} (action e) (h : σ), I r → I (r.process profile action e h).remapper)
    (finishDance : ∀ {r} (h : σ), I r → I (r.finishDance h).1) {s : Remapper × σ} (hs : I s.1) (ops : List (Op σ)) :
    I (run profile s ops).1 := by
  induction ops generalizing s with
  | nil => exact hs
  | cons op ops ih =>
    refine ih ?_
    cases op with
    | event action e => exact process action e s.2 hs
    | finishDance => exact finishDance s.2 hs
    | onHost change => exact hs

end Remapper

end ShiftRemap
