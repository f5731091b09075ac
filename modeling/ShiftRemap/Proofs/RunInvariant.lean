import ShiftRemap.Proofs.Strokes

/-!
# What a run keeps of the reporter

What the calls of the remapper keep (`CallsKeep`) is kept by a whole run of a keyboard if the rest of what a
keyboard does to its reporter keeps it too: recording the change of a switch, setting the layer, and handing
out reports (`OpsKeep`). So an invariant of the reporter is shown call by call (`OpsKeep.run`), and one of the
whole keyboard operation by operation (`run_keeps`). The first one is that the slots stay tidy (`tidy_run`).
-/

namespace ShiftRemap

open Keyboard

/-- What every operation keeps holds after every run. -/
theorem Keyboard.run_keeps {I : Keyboard → Prop} (step : ∀ {kb : Keyboard} (op : Op), I kb → I (kb.apply op))
    {kb : Keyboard} (h : I kb) (ops : List Op) : I (kb.run ops) := by
  induction ops generalizing kb with
  | nil => exact h
  | cons op ops ih => exact ih (step op h)

/-- No operation changes the profile. -/
theorem Keyboard.run_profile (kb : Keyboard) (ops : List Op) : (kb.run ops).profile = kb.profile := by
  refine run_keeps (I := fun kb' => kb'.profile = kb.profile) (fun op h => ?_) rfl ops
  cases op <;> exact h

/-- Everything that an operation does to the reporter keeps `P`, receives apart. -/
structure OpsKeep (P : Reporter → Prop) : Prop extends CallsKeep P where
  updateMatrix : ∀ {e : KeyEvent} {r : Reporter}, P r → P (r.updateMatrix e)
  setLayer : ∀ {n : UInt8} {r : Reporter}, P r → P (r.setLayer n)

namespace OpsKeep

variable {P : Reporter → Prop} {kb : Keyboard}

/-- One operation that is no receive. -/
theorem apply (hP : OpsKeep P) {op : Op} (hop : ∀ n, op ≠ .receive n) (h : P kb.reporter) :
    P (kb.apply op).reporter := by
  cases op with
  | key action e => exact hP.processKey (hP.updateMatrix h)
  | setLayer n => exact hP.setLayer h
  | finishDance => exact hP.finishDance h
  | receive n => exact absurd rfl (hop n)

/-- A run, if receives keep `P` as well. -/
theorem run (hP : OpsKeep P) (receive : ∀ {n : Nat} {r : Reporter}, P r → P (r.receive n).2)
    (h : P kb.reporter) (ops : List Op) : P (kb.run ops).reporter := by
  refine run_keeps (I := fun kb => P kb.reporter) (fun {kb} op h => ?_) h ops
  cases op with
  | receive n => exact receive h
  | key action e => exact hP.apply nofun h
  | setLayer n => exact hP.apply nofun h
  | finishDance => exact hP.apply nofun h

end OpsKeep

namespace Reporter

theorem opsKeep_tidy : OpsKeep fun r : Reporter => r.slots.Tidy where
  toCallsKeep := callsKeep_tidy
  updateMatrix {e r} h := (updateMatrix_slots e r).symm ▸ h
  setLayer {n r} h := (setLayer_fields n r).2.1.symm ▸ h

end Reporter

/-- The slots are tidy after every run. -/
theorem Keyboard.tidy_run (profile : Profile) (capacity : Nat) (ops : List Op) :
    ((Keyboard.new profile capacity).run ops).reporter.slots.Tidy :=
  Reporter.opsKeep_tidy.run (fun h => h) Slots.tidy_empty ops

end ShiftRemap
