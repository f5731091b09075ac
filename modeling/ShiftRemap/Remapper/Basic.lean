import ShiftRemap.Dance.Basic
import ShiftRemap.Remapper.Filter

/-!
# The remapper

Every key event passes the remapper before the keyboard registers it. A press first resolves the dances of
the other keys. Then the shift filter sees the event: a press on the base layer is hijacked if its key
triggers a pair, and the release of a hijacked press is hijacked too, whatever layer is active by then.
What the filter leaves may be a shortcut or a layer tap, which are done with here; everything else goes on
to the keyboard (`Step.passes`).
-/

namespace ShiftRemap

/-- What the user has chosen. -/
structure Profile where
  /-- The layer on which pairs are hijacked. -/
  baseLayer : UInt8 := 0
  hostOs : HostOs := .linux
  pairs : PairTable := .empty

/-- The positions whose press was hijacked, with the key they were hijacked for. -/
structure HijackedKeys where
  entries : List (Position × KeyCode) := []
  deriving DecidableEq

namespace HijackedKeys

/-- Positions that can be remembered at a time. -/
def capacity : Nat := 8

def get? (s : HijackedKeys) (p : Position) : Option KeyCode := (s.entries.find? (·.1 == p)).map (·.2)

def erase (p : Position) (s : HijackedKeys) : HijackedKeys := ⟨s.entries.filter (·.1 != p)⟩

/-- Remembers a position, in place of what was remembered for it; `none` if there is no room. -/
def insert? (p : Position) (k : KeyCode) (s : HijackedKeys) : Option HijackedKeys :=
  if (s.get? p).isSome then some ⟨s.entries.map fun e => if e.1 = p then (p, k) else e⟩
  else if s.entries.length < capacity then some ⟨s.entries ++ [(p, k)]⟩
  else none

end HijackedKeys

/-- The state of the remapper between two events. -/
structure Remapper where
  tracker : ShiftTracker := {}
  hijacked : HijackedKeys := {}
  dances : List Dance := []
  deriving DecidableEq

/-- The answer to an event: the remapper and the host after it, and whether the keyboard is to register
the action as usual. -/
structure Remapper.Step (σ : Type) where
  remapper : Remapper
  host : σ
  passes : Bool

namespace Remapper

/-- Dances that can be in progress at a time. -/
def danceCapacity : Nat := 4

/-- The user holds shift. -/
def shiftHeld (r : Remapper) : Bool := r.tracker.shiftHeld

/-- A dance waits for its tapping term to be over. -/
def dancePending (r : Remapper) : Bool := r.dances.any (!·.isFinished)

variable {σ : Type} [KeyHost σ]

/-- Resolves the pending dance, whose tapping term is over. -/
def finishDance (r : Remapper) (h : σ) : Remapper × σ :=
  let (dances, h) := Dance.settle (!·.isFinished) r.dances h
  ({ r with dances }, h)

/-- Resolves the pending dances of all positions but `p`, where a key is pressed. -/
def interruptDances (p : Position) (r : Remapper) (h : σ) : Remapper × σ :=
  let due (d : Dance) := d.position != p && !d.isFinished
  let marked := r.dances.map fun d => if due d then d.interrupt else d
  let (dances, h) := Dance.settle due marked h
  ({ r with dances }, h)

/-- The key by which an action may trigger a pair. -/
def triggerOf : Action → KeyCode
  | .key chord => chord.key
  | _ => .no

/-- Runs the shift filter. The flag says whether the filter took the event over. -/
def filter (profile : Profile) (action : Action) (e : KeyEvent) (r : Remapper) (h : σ) :
    Bool × Remapper × σ :=
  match if e.pressed then none else r.hijacked.get? e.position with
  | some key =>
    let (verdict, tracker, h) := ShiftFilter.process profile.pairs key e true r.tracker h
    (verdict.isHandled, { r with tracker, hijacked := r.hijacked.erase e.position }, h)
  | none =>
    let key := triggerOf action
    let enabled := e.pressed && KeyHost.highestLayer h == profile.baseLayer
    let (verdict, tracker, h) := ShiftFilter.process profile.pairs key e enabled r.tracker h
    let r := { r with tracker }
    if verdict.isHandled then
      match r.hijacked.insert? e.position key with
      | some hijacked => (true, { r with hijacked }, h)
      | none => (true, r, KeyHost.note (.tooManyHijacked e.position) h)
    else (false, r, h)

/-- Lets a layer tap dance: its first press begins a dance, further presses are taps, and a release may end
it. -/
def dance (layer : UInt8) (chord : Chord) (e : KeyEvent) (r : Remapper) (h : σ) : Remapper × σ :=
  match r.dances.find? (·.position == e.position), e.pressed with
  | some d, true =>
    let tapped := if d.isFinished then d else d.tap
    ({ r with dances := r.dances.map fun x => if x.position = e.position then tapped else x }, h)
  | some d, false =>
    let (d, ended, h) := d.release h
    let dances := if ended then r.dances.filter (·.position != e.position)
      else r.dances.map fun x => if x.position = e.position then d else x
    ({ r with dances }, h)
  | none, true =>
    if r.dances.length < danceCapacity then
      ({ r with dances := r.dances ++ [Dance.start e.position layer chord] }, h)
    else (r, KeyHost.note (.tooManyDances e.position) h)
  | none, false => (r, h)

/-- Processes one key event. -/
def process (profile : Profile) (action : Action) (e : KeyEvent) (r : Remapper) (h : σ) : Step σ :=
  let (r, h) := if e.pressed then r.interruptDances e.position h else (r, h)
  let (taken, r, h) := r.filter profile action e h
  if taken then ⟨r, h, false⟩
  else
    match action with
    | .shortcut s =>
      if e.pressed then
        let chord := s.chord profile.hostOs
        ⟨r, h |> KeyHost.note (.shortcutTapped s profile.hostOs chord) |> KeyHost.tap chord, false⟩
      else ⟨r, h, false⟩
    | .layerTap layer chord =>
      let (r, h) := r.dance layer chord e h
      ⟨r, h, false⟩
    | .none | .key _ => ⟨r, h, true⟩

end Remapper

end ShiftRemap
