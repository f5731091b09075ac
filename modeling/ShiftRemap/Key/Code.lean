/-!
# Key codes

The keys of the HID keyboard usage page that a keyboard can report: usages `0x00` to `0xA4` and, after
a gap, the eight modifier keys at `0xE0` to `0xE7`. A key has three numbers that must not be mixed up:
its *index* (its place in the declaration, which the wire form uses), its *usage* (the byte in a
report), and for a modifier key its *bit* (`Modifiers`).

Proved here: the index and the usage each determine the key (`ofIndex?_index`, `ofUsage_usage`), and
`all` lists every key.
-/

namespace ShiftRemap

/-- A key of the keyboard usage page; `no` stands for the absence of a key. -/
inductive KeyCode
  | no | errorRollover | postFail | errorUndefined | keyA | keyB | keyC | keyD | keyE | keyF | keyG
  | keyH | keyI | keyJ | keyK | keyL | keyM | keyN | keyO | keyP | keyQ | keyR | keyS | keyT | keyU
  | keyV | keyW | keyX | keyY | keyZ | digit1 | digit2 | digit3 | digit4 | digit5 | digit6 | digit7
  | digit8 | digit9 | digit0 | enter | escape | backspace | tab | space | minus | equal
  | leftBracket | rightBracket | backslash | nonUsHash | semicolon | quote | grave | comma | dot
  | slash | capsLock | f1 | f2 | f3 | f4 | f5 | f6 | f7 | f8 | f9 | f10 | f11 | f12 | printScreen
  | scrollLock | pause | insert | home | pageUp | delete | endKey | pageDown | right | left | down
  | up | numLock | kpSlash | kpAsterisk | kpMinus | kpPlus | kpEnter | kp1 | kp2 | kp3 | kp4 | kp5
  | kp6 | kp7 | kp8 | kp9 | kp0 | kpDot | nonUsBackslash | application | power | kpEqual | f13
  | f14 | f15 | f16 | f17 | f18 | f19 | f20 | f21 | f22 | f23 | f24 | execute | help | menu
  | select | stop | again | undo | cut | copy | paste | find | mute | volumeUp | volumeDown
  | lockingCapsLock | lockingNumLock | lockingScrollLock | kpComma | kpEqualAs400 | international1
  | international2 | international3 | international4 | international5 | international6
  | international7 | international8 | international9 | language1 | language2 | language3
  | language4 | language5 | language6 | language7 | language8 | language9 | alternateErase
  | systemRequest | cancel | clear | prior | returnKey | separator | out | oper | clearAgain
  | crSel | exSel | leftCtrl | leftShift | leftAlt | leftGui | rightCtrl | rightShift | rightAlt
  | rightGui
  deriving DecidableEq

namespace KeyCode

instance : Inhabited KeyCode := ⟨.no⟩

/-- Every key, in order of declaration. -/
def all : List KeyCode := [
  .no, .errorRollover, .postFail, .errorUndefined, .keyA, .keyB, .keyC, .keyD, .keyE, .keyF, .keyG,
  .keyH, .keyI, .keyJ, .keyK, .keyL, .keyM, .keyN, .keyO, .keyP, .keyQ, .keyR, .keyS, .keyT, .keyU,
  .keyV, .keyW, .keyX, .keyY, .keyZ, .digit1, .digit2, .digit3, .digit4, .digit5, .digit6, .digit7,
  .digit8, .digit9, .digit0, .enter, .escape, .backspace, .tab, .space, .minus, .equal,
  .leftBracket, .rightBracket, .backslash, .nonUsHash, .semicolon, .quote, .grave, .comma, .dot,
  .slash, .capsLock, .f1, .f2, .f3, .f4, .f5, .f6, .f7, .f8, .f9, .f10, .f11, .f12, .printScreen,
  .scrollLock, .pause, .insert, .home, .pageUp, .delete, .endKey, .pageDown, .right, .left, .down,
  .up, .numLock, .kpSlash, .kpAsterisk, .kpMinus, .kpPlus, .kpEnter, .kp1, .kp2, .kp3, .kp4, .kp5,
  .kp6, .kp7, .kp8, .kp9, .kp0, .kpDot, .nonUsBackslash, .application, .power, .kpEqual, .f13,
  .f14, .f15, .f16, .f17, .f18, .f19, .f20, .f21, .f22, .f23, .f24, .execute, .help, .menu,
  .select, .stop, .again, .undo, .cut, .copy, .paste, .find, .mute, .volumeUp, .volumeDown,
  .lockingCapsLock, .lockingNumLock, .lockingScrollLock, .kpComma, .kpEqualAs400, .international1,
  .international2, .international3, .international4, .international5, .international6,
  .international7, .international8, .international9, .language1, .language2, .language3,
  .language4, .language5, .language6, .language7, .language8, .language9, .alternateErase,
  .systemRequest, .cancel, .clear, .prior, .returnKey, .separator, .out, .oper, .clearAgain,
  .crSel, .exSel, .leftCtrl, .leftShift, .leftAlt, .leftGui, .rightCtrl, .rightShift, .rightAlt,
  .rightGui]

/-- The place of the key in the declaration. -/
def index (k : KeyCode) : Nat := k.ctorIdx

/-- The key at a place of the declaration. -/
def ofIndex? (n : Nat) : Option KeyCode := all[n]?

theorem ofIndex?_index (k : KeyCode) : ofIndex? k.index = some k := by cases k <;> rfl

theorem mem_all (k : KeyCode) : k ∈ all := List.mem_of_getElem? (ofIndex?_index k)

/-- The modifier keys close the declaration. -/
def isModifier (k : KeyCode) : Bool := leftCtrl.index ≤ k.index

/-- The byte that stands for the key in a report. The modifier keys follow a gap of 59 usages. -/
def usage (k : KeyCode) : UInt8 := .ofNat (if k.isModifier then k.index + 59 else k.index)

/-- The key of a usage, if the usage is one. -/
def ofUsage? (b : UInt8) : Option KeyCode :=
  if b.toNat < leftCtrl.index then ofIndex? b.toNat
  else if b.toNat < leftCtrl.index + 59 then none
  else ofIndex? (b.toNat - 59)

/-- The key of a usage; a usage that is no key reads as `no`. -/
def ofUsage (b : UInt8) : KeyCode := (ofUsage? b).getD .no

theorem ofUsage_usage (k : KeyCode) : ofUsage k.usage = k := by cases k <;> rfl

theorem usage_injective {a b : KeyCode} (h : a.usage = b.usage) : a = b := by
  rw [← ofUsage_usage a, h, ofUsage_usage]

/-- The name under which the key is written. -/
def name : KeyCode → String
  | .no => "No"
  | .errorRollover => "ErrorRollover"
  | .postFail => "PostFail"
  | .errorUndefined => "ErrorUndefined"
  | .keyA => "A"
  | .keyB => "B"
  | .keyC => "C"
  | .keyD => "D"
  | .keyE => "E"
  | .keyF => "F"
  | .keyG => "G"
  | .keyH => "H"
  | .keyI => "I"
  | .keyJ => "J"
  | .keyK => "K"
  | .keyL => "L"
  | .keyM => "M"
  | .keyN => "N"
  | .keyO => "O"
  | .keyP => "P"
  | .keyQ => "Q"
  | .keyR => "R"
  | .keyS => "S"
  | .keyT => "T"
  | .keyU => "U"
  | .keyV => "V"
  | .keyW => "W"
  | .keyX => "X"
  | .keyY => "Y"
  | .keyZ => "Z"
  | .digit1 => "Kc1"
  | .digit2 => "Kc2"
  | .digit3 => "Kc3"
  | .digit4 => "Kc4"
  | .digit5 => "Kc5"
  | .digit6 => "Kc6"
  | .digit7 => "Kc7"
  | .digit8 => "Kc8"
  | .digit9 => "Kc9"
  | .digit0 => "Kc0"
  | .enter => "Enter"
  | .escape => "Escape"
  | .backspace => "Backspace"
  | .tab => "Tab"
  | .space => "Space"
  | .minus => "Minus"
  | .equal => "Equal"
  | .leftBracket => "LeftBracket"
  | .rightBracket => "RightBracket"
  | .backslash => "Backslash"
  | .nonUsHash => "NonusHash"
  | .semicolon => "Semicolon"
  | .quote => "Quote"
  | .grave => "Grave"
  | .comma => "Comma"
  | .dot => "Dot"
  | .slash => "Slash"
  | .capsLock => "CapsLock"
  | .f1 => "F1"
  | .f2 => "F2"
  | .f3 => "F3"
  | .f4 => "F4"
  | .f5 => "F5"
  | .f6 => "F6"
  | .f7 => "F7"
  | .f8 => "F8"
  | .f9 => "F9"
  | .f10 => "F10"
  | .f11 => "F11"
  | .f12 => "F12"
  | .printScreen => "PrintScreen"
  | .scrollLock => "ScrollLock"
  | .pause => "Pause"
  | .insert => "Insert"
  | .home => "Home"
  | .pageUp => "PageUp"
  | .delete => "Delete"
  | .endKey => "End"
  | .pageDown => "PageDown"
  | .right => "Right"
  | .left => "Left"
  | .down => "Down"
  | .up => "Up"
  | .numLock => "NumLock"
  | .kpSlash => "KpSlash"
  | .kpAsterisk => "KpAsterisk"
  | .kpMinus => "KpMinus"
  | .kpPlus => "KpPlus"
  | .kpEnter => "KpEnter"
  | .kp1 => "Kp1"
  | .kp2 => "Kp2"
  | .kp3 => "Kp3"
  | .kp4 => "Kp4"
  | .kp5 => "Kp5"
  | .kp6 => "Kp6"
  | .kp7 => "Kp7"
  | .kp8 => "Kp8"
  | .kp9 => "Kp9"
  | .kp0 => "Kp0"
  | .kpDot => "KpDot"
  | .nonUsBackslash => "NonusBackslash"
  | .application => "Application"
  | .power => "KbPower"
  | .kpEqual => "KpEqual"
  | .f13 => "F13"
  | .f14 => "F14"
  | .f15 => "F15"
  | .f16 => "F16"
  | .f17 => "F17"
  | .f18 => "F18"
  | .f19 => "F19"
  | .f20 => "F20"
  | .f21 => "F21"
  | .f22 => "F22"
  | .f23 => "F23"
  | .f24 => "F24"
  | .execute => "Execute"
  | .help => "Help"
  | .menu => "Menu"
  | .select => "Select"
  | .stop => "Stop"
  | .again => "Again"
  | .undo => "Undo"
  | .cut => "Cut"
  | .copy => "Copy"
  | .paste => "Paste"
  | .find => "Find"
  | .mute => "KbMute"
  | .volumeUp => "KbVolumeUp"
  | .volumeDown => "KbVolumeDown"
  | .lockingCapsLock => "LockingCapsLock"
  | .lockingNumLock => "LockingNumLock"
  | .lockingScrollLock => "LockingScrollLock"
  | .kpComma => "KpComma"
  | .kpEqualAs400 => "KpEqualAs400"
  | .international1 => "International1"
  | .international2 => "International2"
  | .international3 => "International3"
  | .international4 => "International4"
  | .international5 => "International5"
  | .international6 => "International6"
  | .international7 => "International7"
  | .international8 => "International8"
  | .international9 => "International9"
  | .language1 => "Language1"
  | .language2 => "Language2"
  | .language3 => "Language3"
  | .language4 => "Language4"
  | .language5 => "Language5"
  | .language6 => "Language6"
  | .language7 => "Language7"
  | .language8 => "Language8"
  | .language9 => "Language9"
  | .alternateErase => "AlternateErase"
  | .systemRequest => "SystemRequest"
  | .cancel => "Cancel"
  | .clear => "Clear"
  | .prior => "Prior"
  | .returnKey => "Return"
  | .separator => "Separator"
  | .out => "Out"
  | .oper => "Oper"
  | .clearAgain => "ClearAgain"
  | .crSel => "Crsel"
  | .exSel => "Exsel"
  | .leftCtrl => "LCtrl"
  | .leftShift => "LShift"
  | .leftAlt => "LAlt"
  | .leftGui => "LGui"
  | .rightCtrl => "RCtrl"
  | .rightShift => "RShift"
  | .rightAlt => "RAlt"
  | .rightGui => "RGui"

/-- The key written under `s`. -/
def ofName? (s : String) : Option KeyCode := all.find? (·.name == s)

end KeyCode

end ShiftRemap
