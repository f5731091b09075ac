/-!
# Outcomes of a tap dance

What a finished dance turned out to be, from the number of its taps, whether another key interrupted it,
and whether its key was still down.
-/

namespace ShiftRemap

/-- What a finished dance turned out to be. -/
inductive Outcome
  /-- No tap at all, or more than two. -/
  | unknown
  | singleTap
  | singleHold
  | doubleTap
  deriving DecidableEq

namespace Outcome

/-- One tap counts as a hold only if nothing interrupted it and its key is still down. -/
def classify (taps : Nat) (interrupted pressed : Bool) : Outcome :=
  match taps with
  | 1 => if interrupted || !pressed then singleTap else singleHold
  | 2 => doubleTap
  | _ => unknown

def name : Outcome → String
  | unknown => "Unknown"
  | singleTap => "SingleTap"
  | singleHold => "SingleHold"
  | doubleTap => "DoubleSingleTap"

theorem classify_eq_singleHold_iff {taps : Nat} {interrupted pressed : Bool} :
    classify taps interrupted pressed = singleHold ↔ taps = 1 ∧ interrupted = false ∧ pressed = true := by
  unfold classify
  split <;> simp_all

end Outcome

end ShiftRemap
