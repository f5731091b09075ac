import ShiftRemap.Key.Modifiers

/-!
# Chords and the characters they type

A `Chord` is a key with the modifiers attached to it. On an en-US layout a character is typed by one
key, alone or with shift (`usLayout`); `Chord.ofAscii` reads the chord of a character off that list.
-/

namespace ShiftRemap

/-- A key together with the modifiers that are held around it. -/
structure Chord where
  key : KeyCode
  mods : Combo := .empty
  deriving DecidableEq

namespace Chord

instance : Inhabited Chord := ⟨⟨.no, .empty⟩⟩

/-- The key with shift attached. -/
def shifted (key : KeyCode) : Chord := ⟨key, .shift⟩

/-- The chord carries shift itself. -/
def isShifted (c : Chord) : Bool := c.mods.has .shift

/-- The chord with shift added to its modifiers. -/
def withShift (c : Chord) : Chord := ⟨c.key, c.mods.union .shift⟩

/-- The debug text. -/
def text (c : Chord) : String :=
  Text.record "ModifiedKey" [("key", c.key.name), ("modifiers", c.mods.text)]

@[simp] theorem isShifted_withShift (c : Chord) : c.withShift.isShifted = true := by
  simp [withShift, isShifted, Combo.shift]

end Chord

/-! ## The en-US layout -/

/-- What one key of the layout types. -/
structure Keycap where
  key : KeyCode
  plain : Char
  withShift : Option Char

/-- The keys that type a character of the ASCII set. -/
def usLayout : List Keycap := [
  ⟨.keyA, 'a', some 'A'⟩, ⟨.keyB, 'b', some 'B'⟩, ⟨.keyC, 'c', some 'C'⟩, ⟨.keyD, 'd', some 'D'⟩,
  ⟨.keyE, 'e', some 'E'⟩, ⟨.keyF, 'f', some 'F'⟩, ⟨.keyG, 'g', some 'G'⟩, ⟨.keyH, 'h', some 'H'⟩,
  ⟨.keyI, 'i', some 'I'⟩, ⟨.keyJ, 'j', some 'J'⟩, ⟨.keyK, 'k', some 'K'⟩, ⟨.keyL, 'l', some 'L'⟩,
  ⟨.keyM, 'm', some 'M'⟩, ⟨.keyN, 'n', some 'N'⟩, ⟨.keyO, 'o', some 'O'⟩, ⟨.keyP, 'p', some 'P'⟩,
  ⟨.keyQ, 'q', some 'Q'⟩, ⟨.keyR, 'r', some 'R'⟩, ⟨.keyS, 's', some 'S'⟩, ⟨.keyT, 't', some 'T'⟩,
  ⟨.keyU, 'u', some 'U'⟩, ⟨.keyV, 'v', some 'V'⟩, ⟨.keyW, 'w', some 'W'⟩, ⟨.keyX, 'x', some 'X'⟩,
  ⟨.keyY, 'y', some 'Y'⟩, ⟨.keyZ, 'z', some 'Z'⟩, ⟨.digit1, '1', some '!'⟩,
  ⟨.digit2, '2', some '@'⟩, ⟨.digit3, '3', some '#'⟩, ⟨.digit4, '4', some '$'⟩,
  ⟨.digit5, '5', some '%'⟩, ⟨.digit6, '6', some '^'⟩, ⟨.digit7, '7', some '&'⟩,
  ⟨.digit8, '8', some '*'⟩, ⟨.digit9, '9', some '('⟩, ⟨.digit0, '0', some ')'⟩,
  ⟨.enter, '\n', none⟩, ⟨.escape, '\x1b', none⟩, ⟨.backspace, '\x08', none⟩, ⟨.tab, '\t', none⟩,
  ⟨.space, ' ', none⟩, ⟨.minus, '-', some '_'⟩, ⟨.equal, '=', some '+'⟩,
  ⟨.leftBracket, '[', some '\x7b'⟩, ⟨.rightBracket, ']', some '\x7d'⟩,
  ⟨.backslash, '\\', some '|'⟩, ⟨.semicolon, ';', some ':'⟩, ⟨.quote, '\x27', some '\x22'⟩,
  ⟨.grave, '\x60', some '~'⟩, ⟨.comma, ',', some '<'⟩, ⟨.dot, '.', some '>'⟩, ⟨.slash, '/', some '?'⟩,
  ⟨.delete, '\x7f', none⟩]

/-- The key that types an ASCII character, and whether shift has to be held. Bytes that no key types
give `no` without shift. -/
def KeyCode.ofAscii (b : UInt8) : KeyCode × Bool :=
  let c := Char.ofUInt8 b
  match usLayout.find? fun cap => cap.plain == c || cap.withShift == some c with
  | some cap => (cap.key, cap.plain != c)
  | none => (.no, false)

/-- The chord that types an ASCII character. -/
def Chord.ofAscii (b : UInt8) : Chord :=
  match KeyCode.ofAscii b with
  | (key, true) => .shifted key
  | (key, false) => ⟨key, .empty⟩

end ShiftRemap
