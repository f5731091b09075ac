import ShiftRemap.Wire.Codec

/-!
# Streams of values

The wire form of a value tells where it ends: a reader takes exactly the bytes that were written and leaves
whatever follows them (`Lawful`). This is shown type by type, a record from its fields and an enumeration from
its varint. It makes a list of values readable without a separator (`decodeMany_encodeAll`), and of two lists of
one length no stream continues the other (`not_prefix_encodeAll`).
-/

namespace ShiftRemap.Wire

/-- A type whose reader gives back what was written and leaves what follows it. -/
class Lawful (α : Type) [Wire α] : Prop where
  decode_encode (a : α) (rest : Bytes) : (decode : Decoder α).run (encode a ++ rest) = .ok (a, rest)

open Lawful

/-! ## Reading in steps -/

/-- A reader goes on where the one before it has stopped. -/
theorem run_bind_of_ok {α β : Type} {m : Decoder α} {f : α → Decoder β} {bs rest : Bytes} {a : α}
    (h : m.run bs = .ok (a, rest)) : (m >>= f).run bs = (f a).run rest := by
  rw [StateT.run_bind, h]
  rfl

theorem run_read {n : Nat} (h : n < Varint.bound) (rest : Bytes) :
    Varint.read.run (Varint.encode n ++ rest) = .ok (n, rest) :=
  Varint.read_encode h rest

theorem readVariant_encode {α : Type} {all : List α} {n : Nat} {a : α} (h : all[n]? = some a)
    (hall : all.length ≤ Varint.bound) (rest : Bytes) :
    (readVariant all).run (Varint.encode n ++ rest) = .ok (a, rest) := by
  have hn : n < Varint.bound := Nat.lt_of_lt_of_le (List.getElem?_eq_some_iff.1 h).1 hall
  rw [readVariant, run_bind_of_ok (run_read hn rest), h]
  rfl

/-- The reader of a record of two fields. -/
theorem decode_two {α β γ : Type} [Wire α] [Wire β] [Lawful α] [Lawful β] (mk : α → β → γ) (a : α) (b : β)
    (rest : Bytes) :
    (do let a ← decode; let b ← decode; return mk a b : Decoder γ).run (encode a ++ encode b ++ rest) =
      .ok (mk a b, rest) := by
  rw [List.append_assoc, run_bind_of_ok (decode_encode a _), run_bind_of_ok (decode_encode b rest)]
  rfl

/-! ## The types that are written -/

instance : Lawful KeyCode where
  decode_encode k rest := readVariant_encode (KeyCode.ofIndex?_index k) (by decide +kernel) rest

instance : Lawful Combo where
  decode_encode _ _ := rfl

instance : Lawful Chord where
  decode_encode c rest := decode_two Chord.mk c.key c.mods rest

instance : Lawful Pair where
  decode_encode p rest := decode_two Pair.mk p.normal p.shifted rest

instance : Lawful Shortcut where
  decode_encode s rest := readVariant_encode (by cases s <;> rfl) (by decide) rest

instance : Lawful HostOs where
  decode_encode os rest := readVariant_encode (by cases os <;> rfl) (by decide) rest

instance : Lawful Action where
  decode_encode action rest := by
    cases action with
    | none => exact run_bind_of_ok (run_read (by decide) rest)
    | key c =>
      show (decode : Decoder Action).run (Varint.encode 1 ++ encode c ++ rest) = _
      rw [List.append_assoc]
      refine (run_bind_of_ok (run_read (by decide) _)).trans ?_
      refine (run_bind_of_ok (decode_encode c rest)).trans ?_
      rfl
    | shortcut s =>
      show (decode : Decoder Action).run (Varint.encode 2 ++ encode s ++ rest) = _
      rw [List.append_assoc]
      refine (run_bind_of_ok (run_read (by decide) _)).trans ?_
      refine (run_bind_of_ok (decode_encode s rest)).trans ?_
      rfl
    | layerTap layer c =>
      have hlayer : readByte.run (layer :: encode c ++ rest) = .ok (layer, encode c ++ rest) := rfl
      show (decode : Decoder Action).run (Varint.encode 3 ++ layer :: encode c ++ rest) = _
      rw [List.append_assoc]
      refine (run_bind_of_ok (run_read (by decide) _)).trans ?_
      refine (run_bind_of_ok hlayer).trans ?_
      refine (run_bind_of_ok (decode_encode c rest)).trans ?_
      rfl

/-! ## Streams -/

variable {α : Type} [Wire α]

/-- The values one after another. -/
def encodeAll (as : List α) : Bytes := as.flatMap encode

/-- Reads so many values, one after another. -/
def decodeMany : Nat → Decoder (List α)
  | 0 => return []
  | n + 1 => do
    let a ← decode
    let as ← decodeMany n
    return a :: as

theorem encodeAll_cons (a : α) (as : List α) : encodeAll (a :: as) = encode a ++ encodeAll as := rfl

/-- A stream is read back value by value, and what follows it is left. -/
theorem decodeMany_encodeAll [Lawful α] (as : List α) (tail : Bytes) :
    (decodeMany as.length).run (encodeAll as ++ tail) = .ok (as, tail) := by
  induction as with
  | nil => rfl
  | cons a as ih =>
    rw [encodeAll_cons, List.append_assoc, List.length_cons, decodeMany, run_bind_of_ok (decode_encode a _),
      run_bind_of_ok ih]
    rfl

-- the second key has an index of two bytes
example : (decodeMany 2).run [4, 165, 1, 9] = .ok ([KeyCode.keyA, .leftCtrl], [9]) := by rfl

/-- Of two lists of one length that differ, the stream of neither continues that of the other: a reader of the
longer stream would find both lists. -/
theorem not_prefix_encodeAll [Lawful α] {as bs : List α} (hlen : as.length = bs.length) (hne : as ≠ bs) :
    ¬ encodeAll as <+: encodeAll bs := by
  rintro ⟨tail, htail⟩
  have has : (decodeMany as.length).run (encodeAll bs) = .ok (as, tail) := htail ▸ decodeMany_encodeAll as tail
  have hbs : (decodeMany bs.length).run (encodeAll bs) = .ok (bs, []) := by
    have h := decodeMany_encodeAll bs []
    rwa [List.append_nil] at h
  rw [hlen, hbs] at has
  cases has
  exact hne rfl

/-- Values of the type can follow each other on the wire without a separator. -/
structure Streams (α : Type) [Wire α] : Prop where
  /-- A list is read back, and exactly what follows it is left. -/
  read_back (as : List α) (tail : Bytes) : (decodeMany as.length).run (encodeAll as ++ tail) = .ok (as, tail)
  /-- Different lists of one length are no prefixes of each other. -/
  not_prefix (as bs : List α) : as.length = bs.length → as ≠ bs → ¬ encodeAll as <+: encodeAll bs

theorem Lawful.streams [Lawful α] : Streams α :=
  ⟨decodeMany_encodeAll, fun _ _ => not_prefix_encodeAll⟩

/-- **Streams are read back.** Lists of keys, combos, chords, pairs, actions, shortcuts and systems are read back
from their wire form whatever follows it, so the wire forms of different lists of one length are no prefixes of each
other. -/
theorem streams_all :
    Streams KeyCode ∧ Streams Combo ∧ Streams Chord ∧ Streams Pair ∧ Streams Action ∧ Streams Shortcut ∧
      Streams HostOs :=
  ⟨Lawful.streams, Lawful.streams, Lawful.streams, Lawful.streams, Lawful.streams, Lawful.streams, Lawful.streams⟩

end ShiftRemap.Wire
