import ShiftRemap.Text.Basic
import ShiftRemap.Toml.Token

/-!
# Strings and keys

What a word between quotes stands for, and what a word stands for as a part of a key. The four kinds of
string: between double quotes with escapes, between single quotes as it stands, and each of the two over
several lines.
-/

namespace ShiftRemap.Toml

/-! ## Escapes -/

/-- The character whose code point is written in hexadecimal. -/
def codePoint? (ds : List Char) : Option Char := do
  let n ← Digits.ofChars? 16 ds
  if n.isValidChar then some (Char.ofNat n) else none

/-- The character of an escape of one letter. -/
def letterEscape? : Char → Option Char
  | 'b' => some '\x08'
  | 't' => some '\t'
  | 'n' => some '\n'
  | 'f' => some '\x0c'
  | 'r' => some '\r'
  | 'e' => some '\x1b'
  | '\x22' => some '\x22'
  | '\\' => some '\\'
  | _ => none

/-- How many digits follow the letter of a numeric escape. -/
def escapeDigits? : Char → Option Nat
  | 'x' => some 2
  | 'u' => some 4
  | 'U' => some 8
  | _ => none

/-- The character of the escape whose backslash was taken, and the number of characters that it takes. -/
def escape? : List Char → Option (Char × Nat)
  | [] => none
  | c :: r =>
    match escapeDigits? c with
    | some n => if (r.take n).length = n then (codePoint? (r.take n)).map (·, n + 1) else none
    | none => (letterEscape? c).map (·, 1)

/-! ## Strings -/

/-- Whether a line ends at the front. -/
def startsWithNewline : List Char → Bool
  | '\n' :: _ | '\r' :: '\n' :: _ => true
  | _ => false

/-- The text without the line end at its front. -/
def dropNewline : List Char → List Char
  | '\n' :: r | '\r' :: '\n' :: r => r
  | cs => cs

/-- Skips blanks and line ends. -/
def skipLines : List Char → List Char
  | [] => []
  | c :: r => if isBlank c || startsWithNewline (c :: r) then skipLines r else c :: r

theorem length_skipLines_le (cs : List Char) : (skipLines cs).length ≤ cs.length := by
  fun_induction skipLines cs with
  | case1 => exact Nat.le_refl _
  | case2 c r _ ih => exact Nat.le_trans ih (Nat.le_succ _)
  | case3 => exact Nat.le_refl _

namespace Quote

/-- Whether a backslash before some text ends its line. What follows then goes on at the next character that is
neither a blank nor a line end. -/
def continuesLine (q : Quote) (cs : List Char) : Bool := q.lines && startsWithNewline (cs.dropWhile isBlank)

/-- Whether a character may stand for itself, given what follows it. -/
def mayHold (q : Quote) (c : Char) (r : List Char) : Bool := isPlain c || (q.lines && startsWithNewline (c :: r))

/-- The text that the inside of a string stands for. -/
def textOf? (q : Quote) : List Char → Option (List Char)
  | [] => some []
  | c :: r =>
    if q.escapes && c = '\\' then
      if q.continuesLine r then q.textOf? (skipLines r)
      else
        match escape? r with
        | some (e, n) => (q.textOf? (r.drop n)).map (e :: ·)
        | none => none
    else if q.mayHold c r then (q.textOf? r).map (c :: ·)
    else none
termination_by cs => cs.length
decreasing_by
  · have := length_skipLines_le r
    simp only [List.length_cons]
    omega
  all_goals simp only [List.length_cons, List.length_drop]; omega

end Quote

namespace Word

/-- The text of a closed string. The line end after its opening quotes is not part of a string over several
lines. -/
def string? : Word → Option String
  | quoted q body true => (q.textOf? (if q.lines then dropNewline body else body)).map String.ofList
  | quoted _ _ false | bare _ => none

def isBareKey (c : Char) : Bool := c.isAlphanum || c = '_' || c = '-'

/-- A part of a key: bare, or a string on one line. -/
def key? : Word → Option String
  | bare cs => if cs.isEmpty || !cs.all isBareKey then none else some (String.ofList cs)
  | quoted q body closed => if q.lines then none else string? (quoted q body closed)

end Word

end ShiftRemap.Toml
