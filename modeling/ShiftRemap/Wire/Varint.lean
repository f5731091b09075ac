/-!
# Varints

A number in base 128, its least digit first; a byte of 128 or more holds a digit and says that another one
follows. The numbers have 32 bits (`Varint.bound`), so a reader takes five bytes at most, of which the fifth
is at most 15. Digits of zero at the end are accepted; `Varint.IsMinimal` says that there are none.

Proved here: reading gives back what was written and leaves the rest (`read_encode`).
-/

namespace ShiftRemap.Wire

abbrev Bytes := List UInt8

/-- Why bytes are not the wire form of a value. -/
inductive DecodeError
  | unexpectedEnd
  | badVarint
  | noSuchVariant
  deriving DecidableEq

namespace DecodeError

def message : DecodeError → String
  | unexpectedEnd => "Hit the end of buffer, expected more data"
  | badVarint => "Found a varint that didn't terminate. Is the usize too big for this platform?"
  | noSuchVariant => "Serde Deserialization Error"

end DecodeError

/-- Reads a value off the front of some bytes. -/
abbrev Decoder := StateT Bytes (Except DecodeError)

/-- The next byte. -/
def readByte : Decoder UInt8
  | [] => .error .unexpectedEnd
  | b :: bs => .ok (b, bs)

namespace Varint

/-- Numbers below this bound have 32 bits. -/
def bound : Nat := 0x100000000

/-- The most bytes a number may take. -/
def maxBytes : Nat := 5

/-- The most that the last of `maxBytes` bytes may hold. -/
def lastByteMax : Nat := 15

def encode (n : Nat) : Bytes :=
  if n < 128 then [.ofNat n] else .ofNat (n % 128 + 128) :: encode (n / 128)
termination_by n

/-- Reads a number of at most `left` bytes, the last of them bounded by `lastByteMax`. -/
def readWithin : (left : Nat) → Decoder Nat
  | 0, _ => .error .badVarint
  | _ + 1, [] => .error .unexpectedEnd
  | left + 1, b :: bs =>
    if b.toNat < 128 then
      if left = 0 ∧ lastByteMax < b.toNat then .error .badVarint else .ok (b.toNat, bs)
    else
      match readWithin left bs with
      | .ok (n, rest) => .ok (b.toNat - 128 + 128 * n, rest)
      | .error e => .error e

/-- Reads a number. -/
def read : Decoder Nat := readWithin maxBytes

/-- The bytes of one number waste none: the last digit is not zero unless it is the only one. -/
def IsMinimal (bs : Bytes) : Prop := bs.length = 1 ∨ bs.getLast? ≠ some 0

theorem readWithin_encode {left n : Nat} (h : n < 16 * Nat.pow 128 (left - 1)) (hl : 0 < left) (rest : Bytes) :
    readWithin left (encode n ++ rest) = .ok (n, rest) := by
  induction left generalizing n with
  | zero => omega
  | succ left ih =>
    rw [encode]
    split
    · rename_i hn
      have : (UInt8.ofNat n).toNat = n := by simp; omega
      have hlast : ¬(left = 0 ∧ lastByteMax < n) := by
        rintro ⟨rfl, h'⟩
        simp [lastByteMax] at h h'
        omega
      simp only [List.cons_append, List.nil_append, readWithin, this, hn, hlast, if_true, if_false]
    · rename_i hn
      have hb : (UInt8.ofNat (n % 128 + 128)).toNat = n % 128 + 128 := by simp; omega
      cases left with
      | zero => simp at h; omega
      | succ l =>
        have hp : Nat.pow 128 (l + 1) = Nat.pow 128 l * 128 := rfl
        simp only [Nat.add_sub_cancel] at h ih
        have := ih (n := n / 128) (by omega) (by omega)
        simp only [List.cons_append, readWithin, hb, this]
        rw [if_neg (by omega), show n % 128 + 128 - 128 + 128 * (n / 128) = n by omega]

/-- Reading gives back a number that was written, and leaves what follows it. -/
theorem read_encode {n : Nat} (h : n < bound) (rest : Bytes) : read (encode n ++ rest) = .ok (n, rest) :=
  readWithin_encode (by simpa [maxBytes, bound] using h) (by simp [maxBytes]) rest

end Varint

end ShiftRemap.Wire
