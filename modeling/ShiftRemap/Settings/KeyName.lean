import ShiftRemap.Key.Chord
import ShiftRemap.Text.Basic

/-!
# Key names

How a chord is written in the settings: as the character it types, by the name of its key in any case, or
as `S(…)`, which adds shift to the chord inside. Blanks around a chord do not count, at any depth. Where a
text is both a character and a name, the character wins: `A` types a capital letter.

Proved here: the recursion ends because every `S(…)` is longer than its inside (`length_of_unwrap?`), and
reading unfolds one wrapper at a time (`parseChars?_of_unwrap?`,
`parseChars?_of_not_unwrap?`).
-/

namespace ShiftRemap.KeyName

/-- The names of one key, in alphabetical order. -/
structure Named where
  key : KeyCode
  names : List String

/-- The keys that have names. -/
def named : List Named := [
  ⟨.keyA, ["a"]⟩, ⟨.keyB, ["b"]⟩, ⟨.keyC, ["c"]⟩, ⟨.keyD, ["d"]⟩, ⟨.keyE, ["e"]⟩, ⟨.keyF, ["f"]⟩,
  ⟨.keyG, ["g"]⟩, ⟨.keyH, ["h"]⟩, ⟨.keyI, ["i"]⟩, ⟨.keyJ, ["j"]⟩, ⟨.keyK, ["k"]⟩, ⟨.keyL, ["l"]⟩,
  ⟨.keyM, ["m"]⟩, ⟨.keyN, ["n"]⟩, ⟨.keyO, ["o"]⟩, ⟨.keyP, ["p"]⟩, ⟨.keyQ, ["q"]⟩, ⟨.keyR, ["r"]⟩,
  ⟨.keyS, ["s"]⟩, ⟨.keyT, ["t"]⟩, ⟨.keyU, ["u"]⟩, ⟨.keyV, ["v"]⟩, ⟨.keyW, ["w"]⟩, ⟨.keyX, ["x"]⟩,
  ⟨.keyY, ["y"]⟩, ⟨.keyZ, ["z"]⟩, ⟨.digit1, ["kc1"]⟩, ⟨.digit2, ["kc2"]⟩, ⟨.digit3, ["kc3"]⟩,
  ⟨.digit4, ["kc4"]⟩, ⟨.digit5, ["kc5"]⟩, ⟨.digit6, ["kc6"]⟩, ⟨.digit7, ["kc7"]⟩, ⟨.digit8, ["kc8"]⟩,
  ⟨.digit9, ["kc9"]⟩, ⟨.digit0, ["kc0"]⟩, ⟨.enter, ["ent", "enter"]⟩, ⟨.escape, ["esc", "escape"]⟩,
  ⟨.backspace, ["backspace", "bspc"]⟩, ⟨.tab, ["tab"]⟩, ⟨.space, ["space", "spc"]⟩,
  ⟨.minus, ["mins", "minus"]⟩, ⟨.equal, ["eql", "equal"]⟩,
  ⟨.leftBracket, ["lbrc", "left_bracket", "leftbracket"]⟩,
  ⟨.rightBracket, ["rbrc", "right_bracket", "rightbracket"]⟩, ⟨.backslash, ["backslash", "bsls"]⟩,
  ⟨.nonUsHash, ["nonus_hash", "nonushash", "nuhs"]⟩, ⟨.semicolon, ["scln", "semicolon"]⟩,
  ⟨.quote, ["quot", "quote"]⟩, ⟨.grave, ["grave", "grv"]⟩, ⟨.comma, ["comm", "comma"]⟩,
  ⟨.dot, ["dot", "period"]⟩, ⟨.slash, ["slash", "slsh"]⟩,
  ⟨.nonUsBackslash, ["nonus_backslash", "nonusbackslash", "nubs"]⟩,
  ⟨.capsLock, ["caps", "caps_lock", "capslock"]⟩, ⟨.f1, ["f1"]⟩, ⟨.f2, ["f2"]⟩, ⟨.f3, ["f3"]⟩,
  ⟨.f4, ["f4"]⟩, ⟨.f5, ["f5"]⟩, ⟨.f6, ["f6"]⟩, ⟨.f7, ["f7"]⟩, ⟨.f8, ["f8"]⟩, ⟨.f9, ["f9"]⟩,
  ⟨.f10, ["f10"]⟩, ⟨.f11, ["f11"]⟩, ⟨.f12, ["f12"]⟩, ⟨.f13, ["f13"]⟩, ⟨.f14, ["f14"]⟩, ⟨.f15, ["f15"]⟩,
  ⟨.f16, ["f16"]⟩, ⟨.f17, ["f17"]⟩, ⟨.f18, ["f18"]⟩, ⟨.f19, ["f19"]⟩, ⟨.f20, ["f20"]⟩, ⟨.f21, ["f21"]⟩,
  ⟨.f22, ["f22"]⟩, ⟨.f23, ["f23"]⟩, ⟨.f24, ["f24"]⟩,
  ⟨.printScreen, ["print_screen", "printscreen", "pscr"]⟩,
  ⟨.scrollLock, ["scrl", "scroll_lock", "scrolllock"]⟩, ⟨.pause, ["paus", "pause"]⟩,
  ⟨.insert, ["ins", "insert"]⟩, ⟨.home, ["home"]⟩, ⟨.pageUp, ["page_up", "pageup", "pgup"]⟩,
  ⟨.delete, ["del", "delete"]⟩, ⟨.endKey, ["end"]⟩, ⟨.pageDown, ["page_down", "pagedown", "pgdn"]⟩,
  ⟨.right, ["rght", "right"]⟩, ⟨.left, ["left"]⟩, ⟨.down, ["down"]⟩, ⟨.up, ["up"]⟩,
  ⟨.application, ["app", "application"]⟩, ⟨.leftCtrl, ["lctl", "lctrl"]⟩,
  ⟨.leftShift, ["lsft", "lshift"]⟩, ⟨.leftAlt, ["lalt"]⟩, ⟨.leftGui, ["lgui"]⟩,
  ⟨.rightCtrl, ["rctl", "rctrl"]⟩, ⟨.rightShift, ["rsft", "rshift"]⟩, ⟨.rightAlt, ["ralt"]⟩,
  ⟨.rightGui, ["rgui"]⟩]

/-- Every name, with its key. -/
def table : List (String × KeyCode) := named.flatMap fun n => n.names.map (·, n.key)

/-- The key of a name. -/
def lookup? (name : String) : Option KeyCode := table.lookup name

/-- The names of a key, in alphabetical order. -/
def namesOf (k : KeyCode) : List String := ((named.find? (·.key == k)).map (·.names)).getD []

/-! ## Reading a chord -/

/-- The text without the blanks at its ends. -/
def trim (cs : List Char) : List Char :=
  ((cs.dropWhile Text.isBlank).reverse.dropWhile Text.isBlank).reverse

/-- The inside of `S(…)`. -/
def unwrap? : List Char → Option (List Char)
  | 'S' :: '(' :: rest => if rest.getLast? = some ')' then some rest.dropLast else none
  | _ => none

/-- The chord that types a single character. -/
def typed? : List Char → Option Chord
  | [c] =>
    if c.toNat < 128 then
      let chord := Chord.ofAscii c.toUInt8
      if chord.key = .no then none else some chord
    else none
  | _ => none

/-- The chord of a text without wrapper: a character, or else a name in any case. -/
def atom? (cs : List Char) : Option Chord :=
  match typed? cs with
  | some chord => some chord
  | none => (lookup? (String.ofList (cs.map Char.toLower))).map fun k => ⟨k, .empty⟩

theorem length_trim_le (cs : List Char) : (trim cs).length ≤ cs.length := by
  have h := (List.dropWhile_suffix Text.isBlank (l := cs)).length_le
  have h' := (List.dropWhile_suffix Text.isBlank (l := (cs.dropWhile Text.isBlank).reverse)).length_le
  simp only [List.length_reverse] at h'
  simp only [trim, List.length_reverse]
  omega

theorem length_of_unwrap? {cs inner : List Char} (h : unwrap? cs = some inner) :
    inner.length + 3 = cs.length := by
  unfold unwrap? at h
  split at h
  · rename_i rest
    split at h
    · rename_i hl
      cases h
      have : rest ≠ [] := by rintro rfl; simp at hl
      have := List.length_pos_iff.2 this
      simp
      omega
    · simp at h
  · simp at h

/-- Reads a chord. -/
def parseChars? (cs : List Char) : Option Chord :=
  match _h : unwrap? (trim cs) with
  | some inner => (parseChars? inner).map Chord.withShift
  | none => atom? (trim cs)
termination_by cs.length
decreasing_by
  have := length_of_unwrap? _h
  have := length_trim_le cs
  omega

/-- Reads a chord. -/
def parse? (s : String) : Option Chord := parseChars? s.toList

theorem parseChars?_of_unwrap? {cs inner : List Char} (h : unwrap? (trim cs) = some inner) :
    parseChars? cs = (parseChars? inner).map Chord.withShift := by
  rw [parseChars?]
  split <;> simp_all

theorem parseChars?_of_not_unwrap? {cs : List Char} (h : unwrap? (trim cs) = none) :
    parseChars? cs = atom? (trim cs) := by
  rw [parseChars?]
  split <;> simp_all

end ShiftRemap.KeyName
