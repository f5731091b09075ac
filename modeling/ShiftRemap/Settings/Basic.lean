import ShiftRemap.Action
import ShiftRemap.Key.Code

/-!
# Settings

What a user writes down: the base layer, the operating system of the host, and the pairs as texts. What can
be wrong with them is an `Error`, whose wording is `Error.message`.
-/

namespace ShiftRemap

/-- A pair as it is written. -/
structure RawPair where
  normal : String
  shifted : String
  deriving DecidableEq

/-- What a user writes down. -/
structure Settings where
  baseLayer : UInt8 := 0
  hostOs : HostOs := .linux
  pairs : List RawPair := []
  deriving DecidableEq

namespace Settings

/-- The most pairs that settings may have. -/
def pairsMax : Nat := 16

/-- The document over which every other one is laid. -/
def defaultDocument : String := "[shifty]\nbase_layer = 0\nhost_os = \"linux\"\npairs = []\n"

/-- The two chords of a pair. -/
inductive Side
  | normal | shifted
  deriving DecidableEq

def Side.name : Side → String
  | normal => "normal"
  | shifted => "shifted"

/-- How the chord of a pair is referred to. -/
def fieldName (i : Nat) (side : Side) : String := "shifty.pairs[" ++ toString i ++ "]." ++ side.name

/-- What can be wrong with settings. -/
inductive Error
  /-- The file cannot be read. -/
  | io (path reason : String)
  /-- The document is malformed, or holds a value of the wrong kind. -/
  | parse (origin reason : String)
  /-- A text is no chord. -/
  | unknownKey (field name : String)
  /-- A chord of a pair has a modifier key. -/
  | modifierInPair (field : String) (key : KeyCode)
  /-- The pair has the trigger of pair `first`. -/
  | duplicateTrigger (field : String) (key : KeyCode) (first : Nat)
  /-- There are more pairs than a table holds. -/
  | tooManyPairs (count max : Nat)
  deriving DecidableEq

namespace Error

def message : Error → String
  | io path reason => "can't read '" ++ path ++ "': " ++ reason
  | parse origin reason => "can't parse " ++ origin ++ ": " ++ reason
  | unknownKey field name =>
    field ++ ": unknown key '" ++ name ++ "', expected a single character, a key name or S(<key>)"
  | modifierInPair field key =>
    field ++ ": modifier key " ++ key.name ++ " can't be used in a shift pair"
  | duplicateTrigger field key first =>
    field ++ ": key " ++ key.name ++ " is already used by shifty.pairs[" ++ toString first ++ "]"
  | tooManyPairs count max =>
    "shifty.pairs: " ++ toString count ++ " pairs given, at most " ++ toString max ++ " are supported"

end Error

end Settings

end ShiftRemap
