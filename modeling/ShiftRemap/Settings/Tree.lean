import ShiftRemap.Number.Shortest
import ShiftRemap.Text.Basic
import ShiftRemap.Toml.Value

/-!
# Layered values

Settings are read from several documents laid over each other: a table is merged with the one below it key
by key, and any other value hides what is below it. A key at the top of a document may be a path into the
tables and arrays below; what is on the way there is made into a table or an array, and the places of an
array that nothing was put into are `nil`.
-/

namespace ShiftRemap.Settings

/-- Whole numbers of machine size are below this bound, `2 ^ 63`, and not below its negative. -/
def integerBound : Nat := 0x8000000000000000

/-- A value whose numbers have machine size. -/
inductive Tree
  | nil
  | string (s : String)
  | integer (n : Int)
  | float (x : Binary64)
  | boolean (b : Bool)
  | array (items : List Tree)
  | table (entries : List (String × Tree))

/-- Why a number that is written is no number of machine size. -/
inductive NumberFault
  | integerTooLarge
  | integerTooSmall
  | noDigits
  /-- Something in a whole number is no digit of its base. -/
  | invalidDigit
  | floatOverflow
  deriving DecidableEq

def NumberFault.text : NumberFault → String
  | integerTooLarge => "number too large to fit in target type"
  | integerTooSmall => "number too small to fit in target type"
  | noDigits => "cannot parse integer from empty string"
  | invalidDigit => "invalid digit found in string"
  | floatOverflow => "floating-point number overflowed"

/-- A place inside a value. Indices below zero count from the end of the array. -/
inductive Segment
  | key (name : String)
  | index (i : Int)
  deriving DecidableEq

namespace Tree

/-- A whole number of machine size. -/
def checkInt (n : Int) : Except NumberFault Int :=
  if n < -integerBound then .error .integerTooSmall
  else if integerBound ≤ n then .error .integerTooLarge
  else .ok n

/-- The whole number that a numeral stands for. Its digits are taken one after the other, so the first that does
not fit decides what is wrong. -/
def ofNumeral (n : Toml.Numeral) : Except NumberFault Tree := do
  if n.digits.isEmpty then throw .noDigits
  let add (value : Int) (c : Char) : Except NumberFault Int :=
    match Digits.value? n.base c with
    | some d => checkInt (n.base * value + (if n.negative then -1 else 1) * d)
    | none => .error .invalidDigit
  return .integer (← n.digits.foldlM add 0)

/-- The number nearest to a literal, which must not be past the largest. -/
def ofLiteral : Toml.Literal → Except NumberFault Tree
  | .nan => .ok (.float .nan)
  | .infinite negative => .ok (.float (.infinite negative))
  | .decimal negative digits exponent =>
    match Binary64.ofDecimal negative digits exponent with
    | .infinite _ => .error .floatOverflow
    | x => .ok (.float x)

mutual

/-- The value of a document, with numbers of machine size. Times become their text. -/
def ofValue : Toml.Value → Except NumberFault Tree
  | .string s | .time s => .ok (.string s)
  | .integer n => ofNumeral n
  | .float x => ofLiteral x
  | .boolean b => .ok (.boolean b)
  | .array vs => (ofItems vs).map .array
  | .table es => (ofEntries es).map .table

/-- See `ofValue`. -/
def ofItems : List Toml.Value → Except NumberFault (List Tree)
  | [] => .ok []
  | v :: vs => do return (← ofValue v) :: (← ofItems vs)

/-- See `ofValue`. -/
def ofEntries : List (String × Toml.Value) → Except NumberFault (List (String × Tree))
  | [] => .ok []
  | (k, v) :: es => do return (k, ← ofValue v) :: (← ofEntries es)

end

/-- The keys of a table; nothing else has any. -/
def entries : Tree → List (String × Tree)
  | table es => es
  | _ => []

/-- The items of an array; nothing else has any. -/
def items : Tree → List Tree
  | array ts => ts
  | _ => []

/-- Sets a key, at the end if it is new. -/
def putKey (k : String) (t : Tree) : List (String × Tree) → List (String × Tree)
  | [] => [(k, t)]
  | (k', t') :: es => if k' = k then (k, t) :: es else (k', t') :: putKey k t es

mutual

/-- Lays a value over another one. -/
def overlay (below : Tree) : Tree → Tree
  | table es => table (overlayEntries below.entries es)
  | t => t

/-- See `overlay`. -/
def overlayEntries (below : List (String × Tree)) : List (String × Tree) → List (String × Tree)
  | [] => below
  | (k, t) :: es => overlayEntries (putKey k (overlay ((below.lookup k).getD nil) t) below) es

end

/-- The place of an index in an array, after the `nil` items that it takes to have that place. -/
def makeRoom (i : Int) (ts : List Tree) : Nat × List Tree :=
  if 0 ≤ i then (i.toNat, ts ++ List.replicate (i.toNat + 1 - ts.length) nil)
  else if i.natAbs ≤ ts.length then (ts.length - i.natAbs, ts)
  else (0, List.replicate (i.natAbs - ts.length) nil ++ ts)

/-- Changes the value at a path, and makes what is on the way there. -/
def update (f : Tree → Tree) : List Segment → Tree → Tree
  | [], t => f t
  | .key k :: path, t => table (putKey k (update f path ((t.entries.lookup k).getD nil)) t.entries)
  | .index i :: path, t =>
    let (n, ts) := makeRoom i t.items
    array (ts.modify n (update f path))

end Tree

/-! ## Paths -/

namespace Segment

def isNameChar (c : Char) : Bool := c.isAlphanum || c = '_' || c = '-'

def isSpace (c : Char) : Bool := c = ' ' || c = '\t'

/-- An index, in digits after an optional minus. -/
def index? (cs : List Char) : Option Int :=
  let (negative, ds) := match cs with
    | '-' :: r => (true, r)
    | _ => (false, cs)
  if ds.isEmpty then none
  else ((Digits.ofChars? 10 ds).filter (· < integerBound)).map fun n => if negative then -n else n

/-- The rest of a path: names after points, and indices in brackets. -/
def ofChars? : (steps : Nat) → List Char → Option (List Segment)
  | _, [] => some []
  | 0, _ => none
  | steps + 1, '.' :: r =>
    let name := r.takeWhile isNameChar
    if name.isEmpty then none
    else (ofChars? steps (r.dropWhile isNameChar)).map (.key (String.ofList name) :: ·)
  | steps + 1, '[' :: r =>
    let r := r.dropWhile isSpace
    let digits := r.takeWhile fun c => c.isDigit || c = '-'
    match index? digits, (r.dropWhile fun c => c.isDigit || c = '-').dropWhile isSpace with
    | some i, ']' :: r => (ofChars? steps r).map (.index i :: ·)
    | _, _ => none
  | _, _ => none

/-- The path that a key at the top of a document stands for. A key that is no path stands for itself. -/
def ofKey (k : String) : List Segment :=
  (ofChars? (k.length + 1) ('.' :: k.toList)).getD [.key k]

end Segment

/-- Lays a document over a value. -/
def Tree.layDocument (below : Tree) (entries : List (String × Tree)) : Tree :=
  entries.foldl (fun below (k, t) => below.update (overlay · t) (Segment.ofKey k)) below

end ShiftRemap.Settings
