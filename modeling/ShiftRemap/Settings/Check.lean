import ShiftRemap.Settings.Basic
import ShiftRemap.Settings.KeyName
import ShiftRemap.Remapper.Basic

/-!
# Checking settings

Settings are good if there are not too many pairs, every text is a chord, no chord has a modifier key, and
no two pairs have the same trigger. `Settings.check` finds the first fault: the count comes before all
pairs, a pair comes before the later ones, and within a pair the texts come before the modifier keys and
the trigger comes last. `Settings.resolve` gives the pairs of good settings, in their order.
-/

namespace ShiftRemap.Settings

/-- Reads one chord of the `i`th pair. -/
def resolveSide (i : Nat) (side : Side) (text : String) : Except Error Chord :=
  match KeyName.parse? text with
  | some chord => .ok chord
  | none => .error (.unknownKey (fieldName i side) text)

/-- Reads the `i`th pair. -/
def resolvePair (i : Nat) (raw : RawPair) : Except Error Pair := do
  let normal ← resolveSide i .normal raw.normal
  let shifted ← resolveSide i .shifted raw.shifted
  return ⟨normal, shifted⟩

/-- Refuses a modifier key. -/
def checkSide (i : Nat) (side : Side) (c : Chord) : Except Error Unit :=
  if c.key.isModifier then .error (.modifierInPair (fieldName i side) c.key) else .ok ()

/-- Checks pairs from the `i`th on; `used` holds the triggers of the pairs before it, with their places. -/
def checkFrom (i : Nat) (used : List (KeyCode × Nat)) : List RawPair → Except Error Unit
  | [] => .ok ()
  | raw :: rest => do
    let p ← resolvePair i raw
    checkSide i .normal p.normal
    checkSide i .shifted p.shifted
    match used.lookup p.trigger with
    | some first => .error (.duplicateTrigger (fieldName i .normal) p.trigger first)
    | none => checkFrom (i + 1) ((p.trigger, i) :: used) rest

/-- The first fault of the settings. -/
def check (s : Settings) : Except Error Unit :=
  if pairsMax < s.pairs.length then .error (.tooManyPairs s.pairs.length pairsMax)
  else checkFrom 0 [] s.pairs

/-- The pairs of the settings, in their order. -/
def resolve (s : Settings) : Except Error (List Pair) := do
  s.check
  s.pairs.zipIdx.mapM fun (raw, i) => resolvePair i raw

/-- Why settings do not make a profile. -/
inductive ProfileError
  | settings (e : Error)
  | table (e : PairTable.Error)
  deriving DecidableEq

/-- The profile of a keyboard with these settings. -/
def profile (s : Settings) : Except ProfileError Profile := do
  let pairs ← s.resolve.mapError .settings
  let table ← (PairTable.ofList pairs).mapError .table
  return ⟨s.baseLayer, s.hostOs, table⟩

end ShiftRemap.Settings
