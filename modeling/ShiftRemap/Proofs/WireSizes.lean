import Mathlib
import ShiftRemap.Proofs.WireStreams

/-!
# How long wire forms are

The wire form of a key has two bytes if its index does not fit into seven bits (`KeyCode.isWide`), which is so for
the last keys of the declaration, the modifier keys among them. So a list takes one byte for each key and another one
for each wide key (`length_encodeAll`). The size that keys declare counts the first of these alone, and a chord
declares the sum of its fields: `declared_size_iff` says which lists fit into what was declared for them, and which
sizes would do for all.
-/

namespace ShiftRemap

/-- The index of the key takes two bytes. -/
def KeyCode.isWide (k : KeyCode) : Bool := 128 ≤ k.index

namespace Wire

/-! ## One value -/

theorem Varint.length_encode {n : Nat} (h : n < 128 * 128) :
    (Varint.encode n).length = 1 + if 128 ≤ n then 1 else 0 := by
  rw [Varint.encode]
  split
  · rename_i hn
    rw [if_neg (by omega)]
    rfl
  · rename_i hn
    rw [if_pos (by omega), Varint.encode, if_pos (by omega)]
    rfl

theorem length_encode_key (k : KeyCode) : (encode k).length = 1 + if k.isWide then 1 else 0 := by
  have hlt : k.index < KeyCode.all.length := (List.getElem?_eq_some_iff.1 (KeyCode.ofIndex?_index k)).1
  have hall : KeyCode.all.length = 173 := rfl
  refine (Varint.length_encode (by omega)).trans ?_
  simp [KeyCode.isWide]

theorem length_encode_chord (c : Chord) : (encode c).length = 2 + if c.key.isWide then 1 else 0 := by
  have hsum : (encode c).length = (encode c.key).length + (encode c.mods).length := List.length_append
  have hmods : (encode c.mods).length = 1 := rfl
  rw [hsum, hmods, length_encode_key]
  omega

/-! ## Lists -/

section Lists

variable {α : Type} [Wire α] {size : Nat} {wide : α → Bool}

/-- If a value takes `size` bytes and a wide one takes another, so does a list. -/
theorem length_encodeAll (h : ∀ a : α, (encode a).length = size + if wide a then 1 else 0) (as : List α) :
    (encodeAll as).length = as.length * size + as.countP wide := by
  induction as with
  | nil => simp [encodeAll]
  | cons a as ih =>
    rw [encodeAll_cons, List.length_append, List.length_cons, List.countP_cons, h, ih, Nat.add_mul]
    omega

theorem length_encodeAll_le_iff (h : ∀ a : α, (encode a).length = size + if wide a then 1 else 0) (as : List α) :
    (encodeAll as).length ≤ as.length * size ↔ ∀ a ∈ as, wide a = false := by
  have hzero : as.countP wide = 0 ↔ ∀ a ∈ as, wide a = false := by simp [List.countP_eq_zero]
  rw [length_encodeAll h, ← hzero]
  omega

/-- So many bytes for each value are enough, whatever list is written. -/
def SizeBound (α : Type) [Wire α] (size : Nat) : Prop := ∀ as : List α, (encodeAll as).length ≤ as.length * size

theorem sizeBound_iff (h : ∀ a : α, (encode a).length = size + if wide a then 1 else 0) {a : α} (ha : wide a = true)
    (m : Nat) : SizeBound α m ↔ size + 1 ≤ m := by
  constructor
  · intro hm
    have hone := hm [a]
    rw [length_encodeAll h] at hone
    simpa [ha] using hone
  · intro hm as
    rw [length_encodeAll h]
    have hcount : as.countP wide ≤ as.length := List.countP_le_length
    calc as.length * size + as.countP wide ≤ as.length * (size + 1) := by rw [Nat.mul_succ]; omega
      _ ≤ as.length * m := Nat.mul_le_mul_left _ hm

end Lists

/-- **Where declared sizes do.** A list of combos fits into the size that is declared for combos. A list of keys or
chords fits just if none of its keys is wide, so the declared sizes are no bounds; the least ones are two bytes for
a key and three for a chord. -/
theorem declared_size_iff (combos : List Combo) (ks : List KeyCode) (cs : List Chord) (m : Nat) :
    (encodeAll combos).length ≤ combos.length * Bounded.maxSize Combo ∧
      ((encodeAll ks).length ≤ ks.length * Bounded.maxSize KeyCode ↔ ∀ k ∈ ks, k.isWide = false) ∧
      ((encodeAll cs).length ≤ cs.length * Bounded.maxSize Chord ↔ ∀ c ∈ cs, c.key.isWide = false) ∧
      (SizeBound KeyCode m ↔ 2 ≤ m) ∧ (SizeBound Chord m ↔ 3 ≤ m) := by
  have hcombos : (encodeAll combos).length = combos.length * 1 := by
    simpa using @length_encodeAll Combo _ 1 (fun _ => false) (fun _ => rfl) combos
  refine ⟨Nat.le_of_eq hcombos, length_encodeAll_le_iff length_encode_key ks,
    length_encodeAll_le_iff length_encode_chord cs, ?_, ?_⟩
  · exact sizeBound_iff length_encode_key (a := .leftCtrl) rfl m
  · exact sizeBound_iff length_encode_chord (a := ⟨.leftCtrl, .empty⟩) rfl m

/-- Left control alone is too long for a key, and alone in a chord for a chord. -/
theorem not_fits_leftCtrl :
    encode KeyCode.leftCtrl = [165, 1] ∧
      ¬ (encodeAll [KeyCode.leftCtrl]).length ≤ 1 * Bounded.maxSize KeyCode ∧
      ¬ (encodeAll [(⟨.leftCtrl, .empty⟩ : Chord)]).length ≤ 1 * Bounded.maxSize Chord := by
  obtain ⟨-, hkeys, hchords, -⟩ := declared_size_iff [] [.leftCtrl] [⟨.leftCtrl, .empty⟩] 1
  refine ⟨by cbv, fun h => ?_, fun h => ?_⟩
  · have hwide := hkeys.1 h .leftCtrl (List.mem_singleton_self _)
    cases hwide
  · have hwide := hchords.1 h _ (List.mem_singleton_self _)
    cases hwide

end Wire

end ShiftRemap
