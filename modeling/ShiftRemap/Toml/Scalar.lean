import ShiftRemap.Text.Basic
import ShiftRemap.Toml.Value

/-!
# Numbers, dates and times

The values without quotes. A number may have underscores between its digits, but no zeros at its front; a
date has to exist, and the seconds of a time may be left out.

Proved here: a text without underscores is left as it is (`ungroup?_eq_some`).
-/

namespace ShiftRemap.Toml

/-! ## Numbers -/

/-- Takes the sign off a number, if it has one. -/
def takeSign : List Char → Option Char × List Char
  | [] => (none, [])
  | c :: r => if c = '+' ∨ c = '-' then (some c, r) else (none, c :: r)

/-- Removes the underscores, each of which has to stand before a digit and after one; `afterDigit` says whether
a digit stands in front of the text. -/
def ungroup? (isDigit : Char → Bool) (afterDigit : Bool) : List Char → Option (List Char)
  | [] => some []
  | c :: r =>
    if c = '_' then if afterDigit && r.head?.any isDigit then ungroup? isDigit false r else none
    else (ungroup? isDigit (isDigit c) r).map (c :: ·)

theorem ungroup?_eq_some (isDigit : Char → Bool) (afterDigit : Bool) (cs : List Char) (h : '_' ∉ cs) :
    ungroup? isDigit afterDigit cs = some cs := by
  induction cs generalizing afterDigit with
  | nil => rfl
  | cons c r ih =>
    simp only [List.mem_cons, not_or] at h
    simp [ungroup?, Ne.symm h.1, ih _ h.2]

def isDigitOf (base : Nat) (c : Char) : Bool := (Digits.value? base c).isSome

/-- The digits of a number whose base is written. There may be none. -/
def radixDigits? (base : Nat) (cs : List Char) : Option (List Char) :=
  (ungroup? (isDigitOf base) false cs).filter (·.all (isDigitOf base))

/-- The digits of a number in base ten, after its sign. Once an underscore has come, what follows need not be
digits, but it must not make the text a fraction, a power of ten or a time. -/
def plainDigits? (cs : List Char) : Option (List Char) :=
  let leading := cs.takeWhile Char.isDigit
  let rest := cs.dropWhile Char.isDigit
  if rest.isEmpty then if leading = ['0'] ∨ leading.head?.any (· ≠ '0') then some leading else none
  else if rest.head? = some '_' ∧ leading.head? ≠ some '0' ∧ rest.all (· ∉ ['.', 'e', 'E', ' ']) then
    ungroup? (isDigitOf 16) false cs
  else none

/-- A whole number in one of the four bases. -/
def integer? : List Char → Option Numeral
  | '0' :: 'x' :: r => (radixDigits? 16 r).map (⟨false, 16, ·⟩)
  | '0' :: 'o' :: r => (radixDigits? 8 r).map (⟨false, 8, ·⟩)
  | '0' :: 'b' :: r => (radixDigits? 2 r).map (⟨false, 2, ·⟩)
  | cs =>
    let (sign, r) := takeSign cs
    (plainDigits? r).map (⟨sign = some '-', 10, ·⟩)

/-- The exponent of a number, after its `e`. -/
def exponent? (cs : List Char) : Option Int :=
  let (sign, r) := takeSign cs
  if r.isEmpty then none
  else (Digits.ofChars? 10 r).map fun n => if sign = some '-' then -n else n

/-- A number with a fraction or an exponent, or one of the words `inf` and `nan`. -/
def float? (cs : List Char) : Option Literal := do
  let (sign, r) := takeSign cs
  let negative := sign = some '-'
  if r = ['i', 'n', 'f'] then return .infinite negative
  if r = ['n', 'a', 'n'] then return .nan
  let digits ← ungroup? Char.isDigit false r
  let isExponent (c : Char) := c = 'e' || c = 'E'
  let mantissa := digits.takeWhile (!isExponent ·)
  let whole := mantissa.takeWhile (· ≠ '.')
  let fraction := mantissa.dropWhile (· ≠ '.')
  if whole.isEmpty || (whole.length ≠ 1 && whole.head? = some '0') || fraction.length = 1 then none
  let fraction := fraction.drop 1
  let n ← Digits.ofChars? 10 (whole ++ fraction)
  match digits.dropWhile (!isExponent ·) with
  | [] => if fraction.isEmpty then none else return .decimal negative n (-fraction.length)
  | _ :: r => return .decimal negative n ((← exponent? r) - fraction.length)

/-! ## Dates and times -/

/-- A number of exactly `n` digits within some bounds, as text. -/
def field? (n min max : Nat) (cs : List Char) : Option (List Char × List Char) := do
  let ds := cs.take n
  let value ← Digits.ofChars? 10 ds
  if ds.length = n ∧ min ≤ value ∧ value ≤ max then some (ds, cs.drop n) else none

/-- Takes one character. -/
def expect? (c : Char) : List Char → Option (List Char)
  | d :: r => if c = d then some r else none
  | [] => none

/-- The number of days of a month. -/
def daysInMonth (year month : Nat) : Nat :=
  if month = 2 then if year % 4 = 0 ∧ (year % 100 ≠ 0 ∨ year % 400 = 0) then 29 else 28
  else if month = 4 ∨ month = 6 ∨ month = 9 ∨ month = 11 then 30
  else 31

/-- A date, `YYYY-MM-DD`. -/
def date? (cs : List Char) : Option (List Char × List Char) := do
  let (year, r) ← field? 4 0 9999 cs
  let (month, r) ← field? 2 1 12 (← expect? '-' r)
  let days := daysInMonth (← Digits.ofChars? 10 year) (← Digits.ofChars? 10 month)
  let (day, r) ← field? 2 1 days (← expect? '-' r)
  return (year ++ '-' :: month ++ '-' :: day, r)

/-- The fraction of a second: at most nine digits count, and zeros at its end do not. -/
def fraction? (cs : List Char) : Option (List Char × List Char) :=
  let ds := cs.takeWhile Char.isDigit
  if ds.isEmpty then none
  else
    let kept := ((ds.take 9).reverse.dropWhile (· = '0')).reverse
    some ('.' :: if kept.isEmpty then ['0'] else kept, cs.dropWhile Char.isDigit)

/-- A time, `HH:MM`, with seconds and their fraction if they are written. A second may be the 60th. -/
def time? (cs : List Char) : Option (List Char × List Char) := do
  let (hour, r) ← field? 2 0 23 cs
  let (minute, r) ← field? 2 0 59 (← expect? ':' r)
  let clock := hour ++ ':' :: minute
  match r with
  | ':' :: r =>
    let (second, r) ← field? 2 0 60 r
    let clock := clock ++ ':' :: second
    match r with
    | '.' :: r =>
      let (fraction, r) ← fraction? r
      return (clock ++ fraction, r)
    | r => return (clock, r)
  | r => return (clock, r)

/-- The offset from universal time, if there is one. -/
def offset? : List Char → Option (List Char × List Char)
  | [] => some ([], [])
  | c :: r =>
    if c = 'Z' ∨ c = 'z' then some (['Z'], r)
    else if c = '+' ∨ c = '-' then do
      let (hour, r) ← field? 2 0 23 r
      let (minute, r) ← field? 2 0 59 (← expect? ':' r)
      let sign := if (hour ++ minute).all (· = '0') then '+' else c
      return (sign :: hour ++ ':' :: minute, r)
    else none

/-- A date, a time, or both with or without an offset. -/
def timeText? (cs : List Char) : Option (List Char) :=
  match date? cs with
  | some (date, []) => some date
  | some (date, c :: r) =>
    if c = 'T' ∨ c = 't' ∨ c = ' ' then do
      let (time, r) ← time? r
      let (offset, r) ← offset? r
      if r.isEmpty then some (date ++ 'T' :: time ++ offset) else none
    else none
  | none =>
    match time? cs with
    | some (time, []) => some time
    | _ => none

/-! ## Values without quotes -/

/-- What a bare text stands for as a value. -/
def scalar? (cs : List Char) : Option Value :=
  if cs = ['t', 'r', 'u', 'e'] then some (.boolean true)
  else if cs = ['f', 'a', 'l', 's', 'e'] then some (.boolean false)
  else
    match integer? cs, float? cs, timeText? cs with
    | some n, _, _ => some (.integer n)
    | none, some x, _ => some (.float x)
    | none, none, some t => some (.time (String.ofList t))
    | none, none, none => none

end ShiftRemap.Toml
