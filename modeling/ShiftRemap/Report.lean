import ShiftRemap.Text.Basic

/-!
# Keyboard reports

The report that a keyboard sends: the modifier byte, a reserved byte, and six key slots; `leds` travels the
other way and is no part of what is sent. `Report.descriptor` is the description of this layout that a
host reads when the keyboard is plugged in.
-/

namespace ShiftRemap

/-- A keyboard report. -/
structure Report where
  modifier : UInt8 := 0
  reserved : UInt8 := 0
  leds : UInt8 := 0
  keycodes : Vector UInt8 6 := .replicate 6 0
  deriving DecidableEq

namespace Report

/-- The report of a keyboard on which nothing is held. -/
def idle : Report := ⟨0, 0, 0, .replicate 6 0⟩

instance : Inhabited Report := ⟨idle⟩

/-- The bytes that are sent. -/
def toBytes (r : Report) : List UInt8 := r.modifier :: r.reserved :: r.keycodes.toList

/-- Writes the report to the front of a buffer; `none` if it does not fit. -/
def writeTo? (r : Report) (buffer : List UInt8) : Option (List UInt8) :=
  if r.toBytes.length ≤ buffer.length then some (r.toBytes ++ buffer.drop r.toBytes.length) else none

/-- The debug text. -/
def text (r : Report) : String :=
  Text.record "KeyboardReport" [("modifier", toString r.modifier), ("reserved", toString r.reserved),
    ("leds", toString r.leds), ("keycodes", Text.list (r.keycodes.toList.map toString))]

/-- The report descriptor: a keyboard with eight modifier bits, a reserved byte, five LEDs as output, and
six slots for the usages `0` to `0xDD`. -/
def descriptor : List UInt8 := [
  0x05, 0x01, 0x09, 0x06, 0xa1, 0x01, 0x05, 0x07, 0x19, 0xe0, 0x29, 0xe7, 0x15, 0x00, 0x25, 0x01, 0x75,
  0x01, 0x95, 0x08, 0x81, 0x02, 0x15, 0x00, 0x26, 0xff, 0x00, 0x75, 0x08, 0x95, 0x01, 0x81, 0x03, 0x05,
  0x08, 0x19, 0x01, 0x29, 0x05, 0x25, 0x01, 0x75, 0x01, 0x95, 0x05, 0x91, 0x02, 0x95, 0x03, 0x91, 0x03,
  0x05, 0x07, 0x19, 0x00, 0x29, 0xdd, 0x26, 0xff, 0x00, 0x75, 0x08, 0x95, 0x06, 0x81, 0x00, 0xc0]

end Report

end ShiftRemap
