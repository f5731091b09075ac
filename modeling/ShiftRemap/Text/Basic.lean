import ShiftRemap.Text.Printable

/-!
# Text

The rules of single characters, and the texts of values that are made of other texts: the blanks, what digits stand
for, a text between double quotes, and the record text of the log and the debug views.

Proved here: `isBlank` holds of all that core calls white space (`isBlank_of_isWhitespace`), and a digit is less than
its base (`Digits.value?_lt`).
-/

namespace ShiftRemap

/-! ## Digits -/

namespace Digits

/-- What a digit of some base stands for. A letter is a digit of the bases above ten, in either case. -/
def value? (base : Nat) (c : Char) : Option Nat :=
  let value? :=
    if c.isDigit then some (c.toNat - '0'.toNat)
    else if 'a' ≤ c ∧ c ≤ 'z' then some (c.toNat - 'a'.toNat + 10)
    else if 'A' ≤ c ∧ c ≤ 'Z' then some (c.toNat - 'A'.toNat + 10)
    else none
  value?.filter (· < base)

/-- The number that some digits stand for, the most significant first; `none` if one of them is no digit of the
base. -/
def ofChars? (base : Nat) (cs : List Char) : Option Nat :=
  cs.foldlM (fun n c => (value? base c).map (base * n + ·)) 0

theorem value?_lt {base d : Nat} {c : Char} (h : value? base c = some d) : d < base := by
  simpa using (Option.filter_eq_some_iff.1 h).2

end Digits

namespace Text

/-! ## Blanks -/

/-- The character is white space, that is, it has the Unicode property `White_Space`. -/
def isBlank (c : Char) : Bool :=
  let n := c.toNat
  (0x09 ≤ n && n ≤ 0x0d) || n == 0x20 || n == 0x85 || n == 0xa0 || n == 0x1680 ||
    (0x2000 ≤ n && n ≤ 0x200a) || n == 0x2028 || n == 0x2029 || n == 0x202f || n == 0x205f || n == 0x3000

theorem isBlank_of_isWhitespace {c : Char} (h : c.isWhitespace = true) : isBlank c = true := by
  simp only [Char.isWhitespace, Bool.or_eq_true, decide_eq_true_eq] at h
  rcases h with ((rfl | rfl) | rfl) | rfl <;> decide

/-! ## Quoted text

A text between double quotes, on one line and without characters that do not show: a tab, a line feed, a
carriage return, a null, a quote and a backslash have an escape of two characters, and every other
unprintable character is written by its code point in hexadecimal. -/

/-- A number in lower-case hexadecimal. -/
def hex (n : Nat) : String := String.ofList (Nat.toDigits 16 n)

/-- One character inside quotes. -/
def escape (c : Char) : String :=
  match c with
  | '\t' => "\\t"
  | '\n' => "\\n"
  | '\r' => "\\r"
  | '\x00' => "\\0"
  | '\x22' => "\\\x22"
  | '\\' => "\\\\"
  | _ => if isPrintable c then c.toString else "\\u\x7b" ++ hex c.toNat ++ "\x7d"

/-- A text in quotes. -/
def quoted (s : String) : String := "\x22" ++ String.join (s.toList.map escape) ++ "\x22"

/-! ## Record text

The name of the record, then its fields in order between braces, each `field: value`, separated by commas. -/

/-- The text `Name { field: value, … }`. -/
def record (name : String) (fields : List (String × String)) : String :=
  let inner := ", ".intercalate (fields.map fun (field, value) => field ++ ": " ++ value)
  name ++ " \x7b " ++ inner ++ " \x7d"

/-- The text `[a, b, …]`. -/
def list (items : List String) : String := "[" ++ ", ".intercalate items ++ "]"

end Text

end ShiftRemap
