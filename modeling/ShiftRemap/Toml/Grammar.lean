import ShiftRemap.Toml.Token

/-!
# The grammar

Tokens put together to statements: headers, and keys with their values, one to a line. Words are left as they
are written; one that is missing counts as an empty bare word, and it is refused with the other words that
stand for nothing when the document is built. Arrays and inline tables may go over several lines and end in a
comma, and they nest at most `depthMax` deep. The readers of values are bounded by a count of steps, computed
from the number of tokens.

Proved here: a key does not add tokens (`length_key_le`).
-/

namespace ShiftRemap.Toml

/-- How deep the parts of a document may nest. -/
def depthMax : Nat := 80

/-- A key as it is written: parts joined by points. -/
abbrev Path := List Word

/-- A value as it is written. -/
inductive Expr
  | word (w : Word)
  | array (items : List Expr)
  | table (fields : List (Path × Expr))

/-- A statement as it is written. -/
inductive Statement
  /-- Opens a table. -/
  | header (path : Path)
  /-- Opens the next of the tables with this header. -/
  | nextTable (path : Path)
  | entry (path : Path) (value : Expr)

/-- What a reader returns: what it has read and the tokens after it; `none` if the tokens do not fit. -/
abbrev Reader (α : Type) := List Token → Option (α × List Token)

/-- Skips what may stand between the parts of an array or an inline table. -/
def skipTrivia (ts : List Token) : List Token := ts.dropWhile Token.isTrivia

/-- Skips the blanks between the parts of a line. -/
def skipBlank : List Token → List Token
  | .blank _ :: r => r
  | ts => ts

/-! ## Keys -/

/-- A part of a key. -/
def part : List Token → Word × List Token
  | .word w :: r => (w, r)
  | ts => (.bare [], ts)

theorem length_skipBlank_le (ts : List Token) : (skipBlank ts).length ≤ ts.length := by
  unfold skipBlank
  split <;> simp

theorem length_part_le (ts : List Token) : (part ts).2.length ≤ ts.length := by
  unfold part
  split <;> simp

/-- What follows a part of a key. -/
def afterPart (ts : List Token) : List Token := skipBlank (part (skipBlank ts)).2

theorem length_afterPart_le (ts : List Token) : (afterPart ts).length ≤ ts.length :=
  Nat.le_trans (length_skipBlank_le _) (Nat.le_trans (length_part_le _) (length_skipBlank_le _))

/-- A key, and the tokens after it and the blanks that follow it. -/
def key (ts : List Token) : Path × List Token :=
  let w := (part (skipBlank ts)).1
  match _h : afterPart ts with
  | .dot :: r =>
    let (ws, r) := key r
    (w :: ws, r)
  | r => ([w], r)
termination_by ts.length
decreasing_by
  have := length_afterPart_le ts
  rw [_h, List.length_cons] at this
  omega

theorem length_key_le (ts : List Token) : (key ts).2.length ≤ ts.length := by
  fun_induction key ts with
  | case1 ts w r h ws r' hk ih =>
    have := length_afterPart_le ts
    rw [h, List.length_cons] at this
    rw [hk] at ih
    simp only at ih ⊢
    omega
  | case2 ts => exact length_afterPart_le ts

/-! ## Values -/

/-- The text of a value without quotes. It goes on over points, and over the blanks before another bare word. -/
def bareText : List Token → List Char × List Token
  | .dot :: r =>
    let (text, r) := bareText r
    ('.' :: text, r)
  | .word (.bare cs) :: r =>
    let (text, r) := bareText r
    (cs ++ text, r)
  | .blank cs :: .word (.bare cs') :: r =>
    let (text, r) := bareText r
    (cs ++ cs' ++ text, r)
  | ts => ([], ts)

/-- A value that is no array and no table. -/
def scalar : List Token → Expr × List Token
  | .word (.quoted q body closed) :: r => (.word (.quoted q body closed), r)
  | ts =>
    let (text, r) := bareText ts
    (.word (.bare text), r)

mutual

/-- A value. -/
def value : (steps depth : Nat) → Reader Expr
  | 0, _, _ => none
  | steps + 1, depth, ts =>
    match ts, depth with
    | .openBracket :: _, 0 | .openBrace :: _, 0 => none
    | .openBracket :: r, depth + 1 => do
      let (items, r) ← items steps depth (skipTrivia r)
      return (.array items, r)
    | .openBrace :: r, depth + 1 => do
      let (fields, r) ← fields steps depth (skipTrivia r)
      return (.table fields, r)
    | ts, _ => some (scalar ts)

/-- The items of an array up to its end. -/
def items : (steps depth : Nat) → Reader (List Expr)
  | 0, _, _ => none
  | _ + 1, _, .closeBracket :: r => some ([], r)
  | _ + 1, _, .comma :: _ => none
  | steps + 1, depth, ts => do
    let (v, r) ← value steps depth ts
    match skipTrivia r with
    | .comma :: r =>
      let (vs, r) ← items steps depth (skipTrivia r)
      return (v :: vs, r)
    | .closeBracket :: r => return ([v], r)
    | _ => none

/-- The keys and values of an inline table up to its end. The value of the last key may be missing, with its
equals sign or without it. -/
def fields : (steps depth : Nat) → Reader (List (Path × Expr))
  | 0, _, _ => none
  | _ + 1, _, .closeBrace :: r => some ([], r)
  | steps + 1, depth, ts =>
    let (path, r) := key ts
    match skipTrivia r with
    | .equals :: r => do
      let r := skipTrivia r
      if r.head? = some .comma then none
      let (v, r) ← value steps depth r
      match skipTrivia r with
      | .comma :: r =>
        let (fs, r) ← fields steps depth (skipTrivia r)
        return ((path, v) :: fs, r)
      | .closeBrace :: r => return ([(path, v)], r)
      | _ => none
    | .closeBrace :: r => some ([(path, .word (.bare []))], r)
    | _ => none

end

/-- The steps that reading a value takes at most. -/
def stepsFor (ts : List Token) : Nat := 2 * ts.length + 2

/-! ## Statements -/

/-- Ends a line: a comment if there is one, then the end of the line or of the text. -/
def endLine? (ts : List Token) : Option (List Token) :=
  let r := skipBlank ts
  let r := if r.head? = some .comment then r.drop 1 else r
  match r with
  | [] => some []
  | .newline :: r => some r
  | _ => none

/-- Whether the last part of a key is missing. -/
def Path.isBrokenOff (path : Path) : Bool := path.getLast? = some (.bare [])

/-- Skips the rest of a line. -/
def skipLine? (ts : List Token) : Option (List Token) :=
  if .stray ∈ ts.takeWhile (· ≠ .newline) then none else some (ts.dropWhile (· ≠ .newline))

/-- Ends a header by its brackets. Where the key is broken off before them, the rest of the line does not
count. -/
def endHeader? (double : Bool) (path : Path) : List Token → Option (List Token)
  | .closeBracket :: .closeBracket :: r => some (if double then r else .closeBracket :: r)
  | .closeBracket :: r => if double then none else some r
  | r => if path.isBrokenOff then skipLine? r else none

/-- One statement. -/
def statement : Reader Statement
  | .openBracket :: .openBracket :: r =>
    let (path, r) := key r
    (endHeader? true path r).map (.nextTable path, ·)
  | .openBracket :: r =>
    let (path, r) := key r
    (endHeader? false path r).map (.header path, ·)
  | ts =>
    match key ts with
    | (path, .equals :: r) => do
      let r := skipBlank r
      let (v, r) ← value (stepsFor r) depthMax r
      return (.entry path v, r)
    | _ => none

/-- The statements of a document, one to a line. -/
def statements : (steps : Nat) → List Token → Option (List Statement)
  | 0, _ => none
  | steps + 1, ts =>
    match skipTrivia ts with
    | [] => some []
    | ts => do
      let (s, r) ← statement ts
      return s :: (← statements steps (← endLine? r))

/-- The statements of a text. -/
def Statement.ofChars? (cs : List Char) : Option (List Statement) :=
  let ts := Token.ofChars cs
  statements (ts.length + 1) ts

end ShiftRemap.Toml
