import ShiftRemap.Action
import ShiftRemap.Pair.Basic
import ShiftRemap.Wire.Varint

/-!
# The wire form

Keys, chords, pairs and actions as bytes, for storage and for the link to a host tool. A value of an
enumeration is its place in the declaration as a varint, followed by its fields; a record is its fields in
order; a byte and a combo are one byte, with every bit kept.

Every type has a writer and a reader; the reader takes its value off the front and leaves the rest, so that
values can follow each other without a separator.
-/

namespace ShiftRemap

/-- A type with a wire form. -/
class Wire (α : Type) where
  /-- The bytes of a value. -/
  encode : α → Wire.Bytes
  /-- The value at the front of some bytes. -/
  decode : Wire.Decoder α

/-- A type that declares how many bytes a value takes at most. -/
class Wire.Bounded (α : Type) extends Wire α where
  maxSize : Nat

namespace Wire

/-- Reads the place of a value in a list of all values. -/
def readVariant (all : List α) : Decoder α := do
  let n ← Varint.read
  match all[n]? with
  | some a => return a
  | none => throw .noSuchVariant

instance : Bounded KeyCode where
  encode k := Varint.encode k.index
  decode := readVariant KeyCode.all
  maxSize := 1

instance : Bounded Combo where
  encode c := [c.toByte]
  decode := Combo.ofByte <$> readByte
  maxSize := 1

instance : Bounded Chord where
  encode c := encode c.key ++ encode c.mods
  decode := do
    let key ← decode
    let mods ← decode
    return ⟨key, mods⟩
  maxSize := Bounded.maxSize KeyCode + Bounded.maxSize Combo

instance : Wire Pair where
  encode p := encode p.normal ++ encode p.shifted
  decode := do
    let normal ← decode
    let shifted ← decode
    return ⟨normal, shifted⟩

instance : Wire Shortcut where
  encode s := Varint.encode s.ctorIdx
  decode := readVariant Shortcut.all

instance : Wire HostOs where
  encode os := Varint.encode os.ctorIdx
  decode := readVariant HostOs.all

instance : Wire Action where
  encode
    | .none => Varint.encode 0
    | .key chord => Varint.encode 1 ++ encode chord
    | .shortcut s => Varint.encode 2 ++ encode s
    | .layerTap layer chord => Varint.encode 3 ++ layer :: encode chord
  decode := do
    match ← Varint.read with
    | 0 => return .none
    | 1 => return .key (← decode)
    | 2 => return .shortcut (← decode)
    | 3 =>
      let layer ← readByte
      return .layerTap layer (← decode)
    | _ => throw .noSuchVariant

end Wire

end ShiftRemap
