import ShiftRemap.Number.Binary64

/-!
# Shortest decimal text

The text of a binary64 number: the fewest digits that read back as the number, the nearest such where there
are several, and of two that are equally near the one further from zero. It is always written out without an
exponent.

The decimals that read back as `m * 2 ^ e` lie between the midpoints to its two neighbours, which belong to
it if `m` is even. With a fixed number of digits the decimals form a grid, and if any of its points lies
there, one of the two around the number does.
-/

namespace ShiftRemap.Binary64

/-- A decimal `digits * 10 ^ exponent`. -/
structure Decimal where
  digits : Nat
  exponent : Int
  deriving DecidableEq

/-- The decimal exponent of the first digit of `m * 2 ^ e`. -/
def leadingPlace (m : Nat) (e : Int) : Int :=
  if 0 ≤ e then (Nat.toDigits 10 (m * Nat.pow 2 e.toNat)).length - 1
  else (Nat.toDigits 10 (m * Nat.pow 5 (-e).toNat)).length - 1 + e

/-- The better one of the two decimals of exponent `p` around `m * 2 ^ e`, if it reads back. -/
def onGrid? (m : Nat) (e p : Int) : Option Decimal :=
  -- in units of a quarter of the last place: the number, and the midpoints to its neighbours
  let low := if m = significandLeast ∧ minExponent < e then 4 * m - 1 else 4 * m - 2
  let binary (x : Nat) := x * Nat.pow 2 (e - 2).toNat * Nat.pow 10 (-p).toNat
  let decimal (d : Nat) := d * Nat.pow 10 p.toNat * Nat.pow 2 (2 - e).toNat
  let fits (d : Nat) :=
    if m % 2 = 0 then binary low ≤ decimal d ∧ decimal d ≤ binary (4 * m + 2)
    else binary low < decimal d ∧ decimal d < binary (4 * m + 2)
  let below := binary (4 * m) / decimal 1
  let above := below + 1
  let belowNearer := 2 * binary (4 * m) < decimal below + decimal above
  if fits below ∧ (belowNearer ∨ ¬fits above) then some ⟨below, p⟩
  else if fits above then some ⟨above, p⟩
  else none

/-- The shortest decimal that reads back as `m * 2 ^ e`. Seventeen digits are always enough. -/
def shortest (m : Nat) (e : Int) : Decimal :=
  let k := leadingPlace m e
  ((List.range 17).findSome? fun (n : Nat) => onGrid? m e (k - n)).getD ⟨0, 0⟩

/-- The decimal written out, without zeros at the end of its fraction. -/
def Decimal.text (d : Decimal) : String :=
  let ds := Nat.toDigits 10 d.digits
  let places := (-d.exponent).toNat
  if places = 0 then String.ofList (ds ++ List.replicate d.exponent.toNat '0')
  else
    let ds := List.replicate (places + 1 - ds.length) '0' ++ ds
    let fraction := ((ds.drop (ds.length - places)).reverse.dropWhile (· == '0')).reverse
    let whole := String.ofList (ds.take (ds.length - places))
    if fraction.isEmpty then whole else whole ++ "." ++ String.ofList fraction

def sign (negative : Bool) : String := if negative then "-" else ""

/-- The text of a number. -/
def text : Binary64 → String
  | nan => "NaN"
  | infinite negative => sign negative ++ "inf"
  | finite negative 0 _ => sign negative ++ "0"
  | finite negative m e => sign negative ++ (shortest m e).text

/-- The text of a number, with a fraction of zero where it would have none. -/
def pointedText (x : Binary64) : String :=
  match x with
  | finite .. => if x.text.contains '.' then x.text else x.text ++ ".0"
  | _ => x.text

end ShiftRemap.Binary64
