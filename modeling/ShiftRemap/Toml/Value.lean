/-!
# Values of a document

What a TOML document holds. Numbers are kept as written, without the bounds of a machine word; a date or
time is kept as its normal text.
-/

namespace ShiftRemap.Toml

/-- A whole number as it is written, without the underscores in it. Not every character need be a digit of
the base. -/
structure Numeral where
  negative : Bool
  base : Nat
  digits : List Char
  deriving DecidableEq

/-- A floating-point number as it is written. -/
inductive Literal
  | nan
  | infinite (negative : Bool)
  /-- The number `± digits * 10 ^ exponent`. -/
  | decimal (negative : Bool) (digits : Nat) (exponent : Int)
  deriving DecidableEq

/-- A value. The keys of a table are distinct and in ascending order. -/
inductive Value
  | string (s : String)
  | integer (n : Numeral)
  | float (x : Literal)
  | boolean (b : Bool)
  | time (text : String)
  | array (items : List Value)
  | table (entries : List (String × Value))

/-- Why a text is no document. -/
inductive Fault
  | malformed
  /-- A key has more parts than a document may nest tables. -/
  | keyTooLong
  deriving DecidableEq

end ShiftRemap.Toml
