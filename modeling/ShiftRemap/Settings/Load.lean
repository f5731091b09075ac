import ShiftRemap.Settings.Basic
import ShiftRemap.Settings.Tree
import ShiftRemap.Text.Basic
import ShiftRemap.Toml.Parser

/-!
# Loading settings

A document is read, laid over the default document, and taken apart into `Settings`. A value of a related
kind is converted where that has a meaning: a truth value, a number or a text can be a layer, and a number
or a truth value can be a text. A record may be a table or an array of its fields in order; keys that are
not known are ignored. What cannot be taken is a `LoadFault`, told with the path of the value.
-/

namespace ShiftRemap.Settings

/-- What is wrong with a value. -/
inductive ValueFault
  /-- The value is of a kind that cannot be converted. -/
  | wrongKind (found expected : String)
  /-- An array has too few items to be a record. -/
  | tooShort (length : Nat) (record : String) (fields : Nat)
  /-- A name is none of those that are allowed. -/
  | unknownName (enumeration name : String)
  /-- The value is neither a name nor a table with one key. -/
  | noName (enumeration : String)
  deriving DecidableEq

def ValueFault.text : ValueFault → String
  | wrongKind found expected => "invalid type: " ++ found ++ ", expected " ++ expected
  | tooShort length record fields =>
    "invalid length " ++ toString length ++ ", expected struct " ++ record ++ " with " ++ toString fields ++
      " elements"
  | unknownName enumeration name =>
    "enum " ++ enumeration ++ " does not have variant constructor " ++ name
  | noName enumeration =>
    "value of enum " ++ enumeration ++
      " should be represented by either string or table with exactly one key"

/-- The path of a value. A point stands between two keys, but not after an index. -/
def pathText : List Segment → String
  | [] => ""
  | [.key k] => k
  | .key k :: .key k' :: path => k ++ "." ++ pathText (.key k' :: path)
  | .key k :: path => k ++ pathText path
  | .index i :: path => "[" ++ toString i ++ "]" ++ pathText path

/-- Why a document is not loaded. -/
inductive LoadFault
  | unreadable (fault : Toml.Fault)
  | badNumber (fault : NumberFault)
  | missing (path : List Segment)
  | badValue (path : List Segment) (fault : ValueFault)
  deriving DecidableEq

def LoadFault.text : LoadFault → String
  | unreadable .malformed => "TOML parse error"
  | unreadable .keyTooLong => "recursion limit\n"
  | badNumber fault => fault.text
  | missing path => "missing configuration field \x22" ++ pathText path ++ "\x22"
  | badValue path fault => fault.text ++ " for key \x60" ++ pathText path ++ "\x60"

/-! ## Values -/

def inBackticks (s : String) : String := "\x60" ++ s ++ "\x60"

/-- How a value is referred to. -/
def Tree.describe : Tree → String
  | nil => "unit value"
  | string s => "string " ++ Text.quoted s
  | integer n => "integer " ++ inBackticks (toString n)
  | float x => "floating point " ++ inBackticks x.pointedText
  | boolean b => "boolean " ++ inBackticks (toString b)
  | array _ => "sequence"
  | table _ => "map"

/-- A reader of a value of some kind. -/
abbrev ValueReader (α : Type) := Tree → Except LoadFault α

def wrongKind (path : List Segment) (t : Tree) (expected : String) : Except LoadFault α :=
  .error (.badValue path (.wrongKind t.describe expected))

/-- The numbers below this bound have 64 bits. -/
def wordBound : Nat := 0x10000000000000000

/-- A number that must be a byte. -/
def byteOfNat (path : List Segment) (n : Nat) : Except LoadFault UInt8 :=
  if n < 256 then .ok (.ofNat n)
  else .error (.badValue path (.wrongKind ("64-bit unsigned integer " ++ inBackticks (toString n))
    "an unsigned 8 bit integer"))

/-- The number that a text stands for: one of six words in any case, or digits after an optional plus. -/
def wordOfText? (s : String) : Option Nat :=
  let lower := s.map Char.toLower
  if lower ∈ ["true", "on", "yes"] then some 1
  else if lower ∈ ["false", "off", "no"] then some 0
  else
    let ds := match s.toList with
      | '+' :: r => r
      | cs => cs
    if ds.isEmpty then none else (Digits.ofChars? 10 ds).filter (· < wordBound)

/-- A byte: a number, or a value that stands for one. -/
def readByte (path : List Segment) : ValueReader UInt8
  | .integer n =>
    if n < 0 then .error (.badValue path (.wrongKind ("64-bit integer " ++ inBackticks (toString n))
      "an unsigned 64 bit or less integer"))
    else byteOfNat path n.toNat
  | .boolean b => .ok (if b then 1 else 0)
  | .float x => byteOfNat path (x.toNatAtMost (wordBound - 1))
  | .string s =>
    match wordOfText? s with
    | some n => byteOfNat path n
    | none => wrongKind path (.string s) "an integer"
  | t => wrongKind path t "an integer"

/-- A text: a string, or a value written out. -/
def readText (path : List Segment) : ValueReader String
  | .string s => .ok s
  | .integer n => .ok (toString n)
  | .float x => .ok x.text
  | .boolean b => .ok (toString b)
  | t => wrongKind path t "a string"

/-- The names of the host systems. -/
def hostOsNames : List (String × HostOs) :=
  [("linux", .linux), ("windows", .windows), ("macos", .macOs), ("mac", .macOs), ("osx", .macOs)]

/-- A host system: its name, or a table with the name as its only key. -/
def readHostOs (path : List Segment) : ValueReader HostOs
  | .string s | .table [(s, _)] =>
    match hostOsNames.lookup s with
    | some os => .ok os
    | none => .error (.badValue path (.unknownName "HostOsConfig" s))
  | _ => .error (.badValue path (.noName "HostOsConfig"))

/-! ## Records -/

/-- Reads a field of a table, if it is there. -/
def readField? (read : List Segment → ValueReader α) (path : List Segment) (entries : List (String × Tree))
    (k : String) : Except LoadFault (Option α) :=
  match entries.lookup k with
  | some t => some <$> read (path ++ [.key k]) t
  | none => .ok none

/-- Reads a field of an array, if it is there. -/
def readItem? (read : List Segment → ValueReader α) (path : List Segment) (items : List Tree) (i : Nat) :
    Except LoadFault (Option α) :=
  match items[i]? with
  | some t => some <$> read (path ++ [.index i]) t
  | none => .ok none

/-- A pair: both of its texts. -/
def readPair (path : List Segment) : ValueReader RawPair
  | .table es => do
    let normal ← readField? readText path es Side.normal.name
    let shifted ← readField? readText path es Side.shifted.name
    match normal, shifted with
    | some normal, some shifted => return ⟨normal, shifted⟩
    | none, _ => throw (.missing (path ++ [.key Side.normal.name]))
    | _, none => throw (.missing (path ++ [.key Side.shifted.name]))
  | .array ts => do
    let normal ← readItem? readText path ts 0
    let shifted ← readItem? readText path ts 1
    match normal, shifted with
    | some normal, some shifted => return ⟨normal, shifted⟩
    | _, _ => throw (.badValue path (.tooShort ts.length "ShiftPairConfig" 2))
  | t => wrongKind path t "struct ShiftPairConfig"

/-- The pairs. -/
def readPairs (path : List Segment) : ValueReader (List RawPair)
  | .array ts => ts.zipIdx.mapM fun (t, i) => readPair (path ++ [.index i]) t
  | t => wrongKind path t "a sequence"

/-- Settings with defaults for what is not there. -/
def ofFields (baseLayer : Option UInt8) (hostOs : Option HostOs) (pairs : Option (List RawPair)) : Settings :=
  ⟨baseLayer.getD 0, hostOs.getD .linux, pairs.getD []⟩

/-- The settings of the section. -/
def readSection (path : List Segment) : ValueReader Settings
  | .table es => do
    let baseLayer ← readField? readByte path es "base_layer"
    let hostOs ← readField? readHostOs path es "host_os"
    let pairs ← readField? readPairs path es "pairs"
    return ofFields baseLayer hostOs pairs
  | .array ts => do
    let baseLayer ← readItem? readByte path ts 0
    let hostOs ← readItem? readHostOs path ts 1
    let pairs ← readItem? readPairs path ts 2
    return ofFields baseLayer hostOs pairs
  | t => wrongKind path t "struct ShiftyConfig"

/-! ## Documents -/

/-- Lays the text of a document over a value. -/
def layText (below : Tree) (text : String) : Except LoadFault Tree := do
  let entries ← (Toml.parse text).mapError .unreadable
  let entries ← (Tree.ofEntries entries).mapError .badNumber
  return below.layDocument entries

/-- Loads the text of a document over the default document. -/
def loadText (text : String) : Except LoadFault Settings := do
  let tree ← [defaultDocument, text].foldlM layText (.table [])
  let settings ← readField? readSection [] tree.entries "shifty"
  return settings.getD {}

/-- Loads a document; `origin` says where it came from. -/
def load (origin text : String) : Except Error Settings :=
  (loadText text).mapError fun fault => .parse origin fault.text

/-- Loads a document that did not come from a file. -/
def ofString (text : String) : Except Error Settings := load "<string>" text

/-! ## Files -/

/-- Why there is no content of a file. -/
inductive ReadFault
  | notFound
  | isDirectory
  | invalidUtf8
  deriving DecidableEq

def ReadFault.text : ReadFault → String
  | notFound => "No such file or directory (os error 2)"
  | isDirectory => "Is a directory (os error 21)"
  | invalidUtf8 => "stream did not contain valid UTF-8"

/-- Loads the document in a file, given what came of reading the bytes at `path`. -/
def ofFile (path : String) (content : Except ReadFault ByteArray) : Except Error Settings := do
  let bytes ← content.mapError fun fault => .io path fault.text
  match String.fromUTF8? bytes with
  | some text => load ("'" ++ path ++ "'") text
  | none => throw (.io path ReadFault.invalidUtf8.text)

end ShiftRemap.Settings
