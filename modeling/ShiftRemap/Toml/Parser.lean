import ShiftRemap.Toml.Document
import ShiftRemap.Toml.Grammar
import ShiftRemap.Toml.Scalar
import ShiftRemap.Toml.Text

/-!
# Reading a document

A text is read in two passes. The first splits it into statements and fails as a whole if the grammar is
violated anywhere. The second takes the statements in order and finds what the words stand for; the first
fault that it meets is the fault of the document.
-/

namespace ShiftRemap.Toml

def orMalformed : Option α → Except Fault α
  | some a => .ok a
  | none => .error .malformed

/-- The texts of a key. -/
def Path.resolve (path : Path) : Except Fault (List String) := do
  let parts ← path.mapM fun w => orMalformed w.key?
  if depthMax < parts.length then throw .keyTooLong
  return parts

/-- What a word stands for as a value. -/
def Word.value? : Word → Option Value
  | bare cs => scalar? cs
  | w => w.string?.map .string

mutual

/-- The value of an expression. -/
def Expr.resolve : Expr → Except Fault Value
  | .word w => orMalformed w.value?
  | .array es => (resolveItems es).map .array
  | .table fs => (resolveFields [] fs).map fun es => .table (Node.entriesToValue es)

/-- See `Expr.resolve`. -/
def resolveItems : List Expr → Except Fault (List Value)
  | [] => .ok []
  | e :: es => do
    let v ← e.resolve
    return v :: (← resolveItems es)

/-- The keys and values of an inline table, added to those before them. -/
def resolveFields (es : Entries) : List (Path × Expr) → Except Fault Entries
  | [] => .ok es
  | (path, e) :: fs => do
    let path ← path.resolve
    let v ← e.resolve
    resolveFields (← orMalformed (es.set v path)) fs

end

/-- A document after one more statement. -/
def Document.apply (d : Document) : Statement → Except Fault Document
  | .header path => do
    let d ← orMalformed d.close
    orMalformed (d.openTable (← path.resolve))
  | .nextTable path => do
    let d ← orMalformed d.close
    return d.nextTable (← path.resolve)
  | .entry path e => do
    let path ← path.resolve
    orMalformed (d.set path (← e.resolve))

/-- The text without a byte order mark at its front. -/
def dropMark : List Char → List Char
  | '\ufeff' :: r => r
  | cs => cs

/-- Reads a document: its keys and their values. -/
def parse (s : String) : Except Fault (List (String × Value)) := do
  let statements ← orMalformed (Statement.ofChars? (dropMark s.toList))
  let d ← statements.foldlM Document.apply {}
  return (← orMalformed d.close).toTable

end ShiftRemap.Toml
