/-!
# Binary floating point

The numbers of the binary64 format as exact values `± significand * 2 ^ exponent`, without machine
arithmetic. A decimal becomes the nearest such number, the even one of two equally near; past the largest
it becomes infinite.

Proved here: `roundHalfEven` is within half a unit (`roundHalfEven_le`, `le_roundHalfEven`).
-/

namespace ShiftRemap

/-- A number of the binary64 format. -/
inductive Binary64
  | nan
  | infinite (negative : Bool)
  /-- The number `± significand * 2 ^ exponent`, the significand being below `significandBound`. -/
  | finite (negative : Bool) (significand : Nat) (exponent : Int)
  deriving DecidableEq

namespace Binary64

/-- The bound of the significands, `2 ^ 53`. -/
def significandBound : Nat := 0x20000000000000

/-- The least significand of a number that is not among the smallest, `2 ^ 52`. -/
def significandLeast : Nat := 0x10000000000000

/-- The exponent of the smallest numbers. -/
def minExponent : Int := -1074

/-- The exponent of the largest numbers. -/
def maxExponent : Int := 971

/-- The quotient `num / den`, rounded to the nearest whole number, a half to the even one. -/
def roundHalfEven (num den : Nat) : Nat :=
  let q := num / den
  let r := num % den
  if 2 * r < den then q else if den < 2 * r then q + 1 else q + q % 2

theorem roundHalfEven_le {num den : Nat} : 2 * (roundHalfEven num den * den) ≤ 2 * num + den := by
  have h := Nat.div_add_mod num den
  rw [Nat.mul_comm] at h
  simp only [roundHalfEven]
  rcases Nat.mod_two_eq_zero_or_one (num / den) with hq | hq <;> simp only [hq] <;>
    repeat (first | (split <;> try simp only [Nat.add_mul, Nat.add_zero, Nat.one_mul]) | omega)

theorem le_roundHalfEven {num den : Nat} (hd : 0 < den) :
    2 * num ≤ 2 * (roundHalfEven num den * den) + den := by
  have h := Nat.div_add_mod num den
  rw [Nat.mul_comm] at h
  have hr := Nat.mod_lt num hd
  simp only [roundHalfEven]
  rcases Nat.mod_two_eq_zero_or_one (num / den) with hq | hq <;> simp only [hq] <;>
    repeat (first | (split <;> try simp only [Nat.add_mul, Nat.add_zero, Nat.one_mul]) | omega)

/-- The number `num / den / 2 ^ e` as a fraction of whole numbers. -/
def scaled (num den : Nat) (e : Int) : Nat × Nat := (num * Nat.pow 2 (-e).toNat, den * Nat.pow 2 e.toNat)

/-- The number nearest to `num / den`. -/
def ofRatio (negative : Bool) (num den : Nat) : Binary64 :=
  let e := max ((num.log2 : Int) - den.log2 - 53) minExponent
  let (n, d) := scaled num den e
  let e := if significandBound ≤ n / d then e + 1 else e
  let (n, d) := scaled num den e
  let m := roundHalfEven n d
  let (m, e) := if m = significandBound then (significandLeast, e + 1) else (m, e)
  if maxExponent < e then infinite negative else finite negative m e

/-- The number nearest to `digits * 10 ^ exponent`. Exponents at which every number of so many digits is
infinite, or zero, are told by their size alone. -/
def ofDecimal (negative : Bool) (digits : Nat) (exponent : Int) : Binary64 :=
  let magnitude := (Nat.toDigits 10 digits).length + exponent
  if digits = 0 ∨ magnitude < -330 then finite negative 0 0
  else if 310 < magnitude then infinite negative
  else ofRatio negative (digits * Nat.pow 10 exponent.toNat) (Nat.pow 10 (-exponent).toNat)

/-- The nearest natural number, a half going up; negative numbers and what is no number give 0, and
nothing gives more than `limit`. -/
def toNatAtMost (limit : Nat) : Binary64 → Nat
  | nan | infinite true | finite true .. => 0
  | infinite false => limit
  | finite false m e =>
    let shift := (-e).toNat
    min limit ((2 * (m * Nat.pow 2 e.toNat) + Nat.pow 2 shift) / Nat.pow 2 (shift + 1))

end Binary64

end ShiftRemap
