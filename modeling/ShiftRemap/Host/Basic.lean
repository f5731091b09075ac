import ShiftRemap.Host.Notice

/-!
# Hosts

The keyboard that the remapper runs in, seen through what the remapper may ask and do: whether a key is
down, which modifiers are registered, which layer is highest; register and unregister keys, switch layers,
and tell what happened. The rest (`setShift`, `registerChord`, `unregisterChord`, `tap`) is made of these.
-/

namespace ShiftRemap

/-- A keyboard with state `σ`. -/
class KeyHost (σ : Type) where
  /-- Some switch of the matrix is down. -/
  anyKeyHeld : σ → Bool
  /-- The modifiers that are registered. -/
  modifiers : σ → Modifiers
  /-- The highest active layer. -/
  highestLayer : σ → UInt8
  register : KeyCode → σ → σ
  unregister : KeyCode → σ → σ
  activateLayer : UInt8 → σ → σ
  deactivateLayer : UInt8 → σ → σ
  /-- Hears a notice. -/
  note : Notice → σ → σ

namespace KeyHost

variable {σ : Type} [KeyHost σ]

/-- Registers or unregisters left shift. -/
def setShift (on : Bool) (h : σ) : σ := if on then register .leftShift h else unregister .leftShift h

/-- The keys of a combo's modifiers, in the order of the report bits. -/
def comboKeys (c : Combo) : List KeyCode := c.toModifiers.toList.map Modifier.key

/-- Registers the modifiers of a chord, then its key. -/
def registerChord (c : Chord) (h : σ) : σ :=
  register c.key ((comboKeys c.mods).foldl (fun h k => register k h) h)

/-- Unregisters the key of a chord, then its modifiers. -/
def unregisterChord (c : Chord) (h : σ) : σ :=
  (comboKeys c.mods).foldl (fun h k => unregister k h) (unregister c.key h)

/-- Presses and releases a chord. -/
def tap (c : Chord) (h : σ) : σ := unregisterChord c (registerChord c h)

end KeyHost

end ShiftRemap
