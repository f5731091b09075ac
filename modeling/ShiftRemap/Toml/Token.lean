/-!
# Tokens

A document as a list of tokens. Splitting never fails: a string that is not closed ends with its line, or with
the text if it may go over several lines, and is refused when it is read. Only a carriage return without a
line feed, and a comment with a control character in it, are told apart here, as `Token.stray`.

Proved here: every token takes at least one character (`Token.length_next_le`).
-/

namespace ShiftRemap.Toml

def isBlank (c : Char) : Bool := c = ' ' || c = '\t'

/-- A character that may stand for itself: no control character but the tab. -/
def isPlain (c : Char) : Bool := c = '\t' || (0x20 ≤ c.toNat && c.toNat ≠ 0x7f)

/-- A character inside a bare word. Quotes are among them: they open a string only at its front. -/
def isBare (c : Char) : Bool :=
  c ∉ ['.', '=', ',', '[', ']', '\x7b', '\x7d', '#', ' ', '\t', '\r', '\n']

/-- The kinds of string: with escapes or as it stands, on one line or over several. -/
structure Quote where
  escapes : Bool
  lines : Bool
  deriving DecidableEq

/-- What stands for a key or a value. -/
inductive Word
  | bare (text : List Char)
  | quoted (quote : Quote) (body : List Char) (closed : Bool)
  deriving DecidableEq

/-- A part of a document. -/
inductive Token
  | dot | equals | comma | openBracket | closeBracket | openBrace | closeBrace | newline | comment
  | blank (text : List Char)
  | word (word : Word)
  /-- A part that no document has. -/
  | stray
  deriving DecidableEq

/-! ## Strings -/

/-- The body of a string that was opened, and what follows the string. -/
structure Body where
  text : List Char
  closed : Bool
  rest : List Char

def Body.cons (c : Char) (b : Body) : Body := { b with text := c :: b.text }

/-- Takes the body of a string on one line. A backslash takes a quote or a backslash after it along. -/
def lineBody (escapes : Bool) (mark : Char) : List Char → Body
  | [] => ⟨[], false, []⟩
  | [c] => if c = mark then ⟨[], true, []⟩ else if c = '\n' then ⟨[], false, [c]⟩ else ⟨[c], false, []⟩
  | c :: d :: r =>
    if c = mark then ⟨[], true, d :: r⟩
    else if c = '\n' then ⟨[], false, c :: d :: r⟩
    else if escapes && c = '\\' && (d = '\\' || d = mark) then .cons c (.cons d (lineBody escapes mark r))
    else .cons c (lineBody escapes mark (d :: r))

/-- Takes the body of a string over several lines: three quotes close it, of up to five that stand together
the last three. -/
def linesBody (escapes : Bool) (mark : Char) : List Char → Body
  | [] => ⟨[], false, []⟩
  | [c] => ⟨[c], false, []⟩
  | c :: d :: r =>
    if c = mark && d = mark && r.head? = some mark then
      let extra := min ((r.drop 1).takeWhile (· = mark)).length 2
      ⟨.replicate extra mark, true, r.drop (1 + extra)⟩
    else if escapes && c = '\\' && (d = '\\' || d = mark) then .cons c (.cons d (linesBody escapes mark r))
    else .cons c (linesBody escapes mark (d :: r))

theorem length_lineBody_le (escapes : Bool) (mark : Char) (cs : List Char) :
    (lineBody escapes mark cs).rest.length ≤ cs.length := by
  fun_induction lineBody escapes mark cs <;> simp_all [Body.cons] <;> omega

theorem length_linesBody_le (escapes : Bool) (mark : Char) (cs : List Char) :
    (linesBody escapes mark cs).rest.length ≤ cs.length := by
  fun_induction linesBody escapes mark cs <;> simp_all [Body.cons] <;> omega

/-- Takes the rest of a string whose first quote was taken. -/
def takeString (escapes : Bool) (mark : Char) (cs : List Char) : Token × List Char :=
  if cs.take 2 = [mark, mark] then
    let b := linesBody escapes mark (cs.drop 2)
    (.word (.quoted ⟨escapes, true⟩ b.text b.closed), b.rest)
  else
    let b := lineBody escapes mark cs
    (.word (.quoted ⟨escapes, false⟩ b.text b.closed), b.rest)

/-! ## Splitting -/

namespace Token

/-- What comes after a comment or a line is the end of the line or of the text. -/
def atLineEnd : List Char → Bool
  | [] | '\n' :: _ | '\r' :: '\n' :: _ => true
  | _ => false

/-- The token that begins with `c`, and the characters after it. -/
def next (c : Char) (r : List Char) : Token × List Char :=
  match c with
  | '.' => (dot, r)
  | '=' => (equals, r)
  | ',' => (comma, r)
  | '[' => (openBracket, r)
  | ']' => (closeBracket, r)
  | '\x7b' => (openBrace, r)
  | '\x7d' => (closeBrace, r)
  | '\n' => (newline, r)
  | '\r' => if r.head? = some '\n' then (newline, r.drop 1) else (stray, r)
  | '#' =>
    let r := r.dropWhile isPlain
    (if atLineEnd r then comment else stray, r)
  | '\x22' => takeString true c r
  | '\x27' => takeString false c r
  | _ =>
    if isBlank c then (blank (c :: r.takeWhile isBlank), r.dropWhile isBlank)
    else (word (.bare (c :: r.takeWhile isBare)), r.dropWhile isBare)

theorem length_takeString_le (escapes : Bool) (mark : Char) (cs : List Char) :
    (takeString escapes mark cs).2.length ≤ cs.length := by
  have h := length_lineBody_le escapes mark cs
  have h' := length_linesBody_le escapes mark (cs.drop 2)
  rw [List.length_drop] at h'
  unfold takeString
  split <;> simp only <;> omega

theorem length_next_le (c : Char) (r : List Char) : (next c r).2.length ≤ r.length := by
  have h (p : Char → Bool) : (r.dropWhile p).length ≤ r.length := (List.dropWhile_suffix p).length_le
  have h' (escapes : Bool) (mark : Char) := length_takeString_le escapes mark r
  unfold next
  split <;> (try split) <;> first | exact Nat.le_refl _ | exact h _ | exact h' _ _ | simp

/-- The tokens of a text. -/
def ofChars : List Char → List Token
  | [] => []
  | c :: r => (next c r).1 :: ofChars (next c r).2
termination_by cs => cs.length
decreasing_by
  have := length_next_le c r
  simp only [List.length_cons]
  omega

/-- A token that may stand anywhere between the parts of an array or an inline table. -/
def isTrivia : Token → Bool
  | blank _ | newline | comment => true
  | _ => false

end Token

end ShiftRemap.Toml
