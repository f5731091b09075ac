import ShiftRemap.Key.Code
import ShiftRemap.Text.Basic

/-!
# Modifiers

A report carries one byte with a bit per modifier key (`Modifiers`). A key of the layout carries
modifiers in a smaller form (`Combo`): four kinds and one flag that says on which side of the keyboard
all of them are. The three high bits of a combo mean nothing, but they are kept by every operation, so
that a combo survives being stored and read back.

Both are words with named bits, and every operation has one lemma that says which bits it sets
(`has_insert`, `has_union`, `has_toModifiers`, …); two sets of modifiers with the same bits are equal
(`Modifiers.ext_has`).
-/

namespace ShiftRemap

/-- The kinds of modifier, and the side flag of a combo, lowest bit first. -/
inductive Combo.Flag
  | ctrl | shift | alt | gui | right
  deriving DecidableEq

namespace Combo.Flag

/-- Every flag, lowest bit first. -/
def all : List Flag := [.ctrl, .shift, .alt, .gui, .right]

/-- The bit of the flag. -/
def index (f : Flag) : Nat := f.ctorIdx

/-- The name of the flag. -/
def name : Flag → String
  | .ctrl => "ctrl"
  | .shift => "shift"
  | .alt => "alt"
  | .gui => "gui"
  | .right => "right"

end Combo.Flag

/-- A modifier key as a bit of the report, lowest bit first. -/
inductive Modifier
  | leftCtrl | leftShift | leftAlt | leftGui | rightCtrl | rightShift | rightAlt | rightGui
  deriving DecidableEq

namespace Modifier

/-- Every modifier, lowest bit first. -/
def all : List Modifier :=
  [.leftCtrl, .leftShift, .leftAlt, .leftGui, .rightCtrl, .rightShift, .rightAlt, .rightGui]

/-- The bit of the modifier. -/
def index (m : Modifier) : Nat := m.ctorIdx

/-- The name of the modifier. -/
def name : Modifier → String
  | .leftCtrl => "left_ctrl"
  | .leftShift => "left_shift"
  | .leftAlt => "left_alt"
  | .leftGui => "left_gui"
  | .rightCtrl => "right_ctrl"
  | .rightShift => "right_shift"
  | .rightAlt => "right_alt"
  | .rightGui => "right_gui"

/-- The key that holds the modifier. -/
def key : Modifier → KeyCode
  | .leftCtrl => .leftCtrl
  | .leftShift => .leftShift
  | .leftAlt => .leftAlt
  | .leftGui => .leftGui
  | .rightCtrl => .rightCtrl
  | .rightShift => .rightShift
  | .rightAlt => .rightAlt
  | .rightGui => .rightGui

/-- The kind of the modifier, without its side. -/
def kind : Modifier → Combo.Flag
  | .leftCtrl | .rightCtrl => .ctrl
  | .leftShift | .rightShift => .shift
  | .leftAlt | .rightAlt => .alt
  | .leftGui | .rightGui => .gui

/-- Whether the modifier is on the right side. -/
def onRight : Modifier → Bool
  | .leftCtrl | .leftShift | .leftAlt | .leftGui => false
  | .rightCtrl | .rightShift | .rightAlt | .rightGui => true

theorem index_lt (m : Modifier) : m.index < 8 := by cases m <;> decide

theorem index_inj {m n : Modifier} : m.index = n.index ↔ m = n := by
  cases m <;> cases n <;> decide

theorem mem_all (m : Modifier) : m ∈ all := by cases m <;> decide

end Modifier

/-- The modifier that a modifier key holds. -/
def KeyCode.modifier? : KeyCode → Option Modifier
  | .leftCtrl => some .leftCtrl
  | .leftShift => some .leftShift
  | .leftAlt => some .leftAlt
  | .leftGui => some .leftGui
  | .rightCtrl => some .rightCtrl
  | .rightShift => some .rightShift
  | .rightAlt => some .rightAlt
  | .rightGui => some .rightGui
  | _ => none

theorem KeyCode.modifier?_key (m : Modifier) : m.key.modifier? = some m := by cases m <;> rfl

theorem KeyCode.isModifier_iff {k : KeyCode} : k.isModifier = true ↔ ∃ m, k.modifier? = some m := by
  cases k <;> simp [isModifier, modifier?, index, KeyCode.ctorIdx]

/-! ## The modifier byte of a report -/

/-- A set of modifiers, as the byte of a report. -/
@[ext] structure Modifiers where
  bits : BitVec 8
  deriving DecidableEq

namespace Modifiers

/-- No modifier. -/
def empty : Modifiers := ⟨0⟩

instance : Inhabited Modifiers := ⟨empty⟩

def ofByte (b : UInt8) : Modifiers := ⟨b.toBitVec⟩

def toByte (s : Modifiers) : UInt8 := ⟨s.bits⟩

def has (s : Modifiers) (m : Modifier) : Bool := s.bits.getLsbD m.index

def isEmpty (s : Modifiers) : Bool := s.bits == 0

/-- Adds one modifier. -/
def insert (m : Modifier) (s : Modifiers) : Modifiers := ⟨s.bits ||| BitVec.twoPow 8 m.index⟩

/-- Removes one modifier. -/
def erase (m : Modifier) (s : Modifiers) : Modifiers := ⟨s.bits &&& ~~~BitVec.twoPow 8 m.index⟩

/-- Adds or removes one modifier. -/
def put (m : Modifier) (on : Bool) (s : Modifiers) : Modifiers := if on then s.insert m else s.erase m

def union (s t : Modifiers) : Modifiers := ⟨s.bits ||| t.bits⟩

def inter (s t : Modifiers) : Modifiers := ⟨s.bits &&& t.bits⟩

/-- The modifiers that are not in `s`. -/
def compl (s : Modifiers) : Modifiers := ⟨~~~s.bits⟩

/-- The modifiers of which `p` holds. -/
def ofPred (p : Modifier → Bool) : Modifiers :=
  Modifier.all.foldl (fun s m => if p m then s.insert m else s) empty

/-- The modifiers in the set, lowest bit first. -/
def toList (s : Modifiers) : List Modifier := Modifier.all.filter s.has

/-- The debug text: every bit by name. -/
def text (s : Modifiers) : String :=
  Text.record "HidModifiers" (Modifier.all.map fun m => (m.name, toString (s.has m)))

@[simp] theorem has_empty (m : Modifier) : empty.has m = false := by simp [empty, has]

@[simp] theorem has_insert (m n : Modifier) (s : Modifiers) :
    (s.insert m).has n = (s.has n || decide (m = n)) := by
  have := n.index_lt
  simp [insert, has, Modifier.index_inj, this]
  grind [Modifier.index_inj, Modifier.index_lt]

@[simp] theorem has_erase (m n : Modifier) (s : Modifiers) :
    (s.erase m).has n = (s.has n && !decide (m = n)) := by
  have := n.index_lt
  simp [erase, has, this]
  grind [Modifier.index_inj, Modifier.index_lt]

@[simp] theorem has_union (s t : Modifiers) (m : Modifier) : (s.union t).has m = (s.has m || t.has m) := by
  simp [union, has]

@[simp] theorem has_inter (s t : Modifiers) (m : Modifier) : (s.inter t).has m = (s.has m && t.has m) := by
  simp [inter, has]

@[simp] theorem has_compl (s : Modifiers) (m : Modifier) : s.compl.has m = !s.has m := by
  simp [compl, has, m.index_lt]

/-- A set of modifiers is determined by its members. -/
theorem ext_has {s t : Modifiers} (h : ∀ m, s.has m = t.has m) : s = t := by
  apply Modifiers.ext
  apply BitVec.eq_of_getLsbD_eq
  intro i hi
  have : ∃ m : Modifier, m.index = i := by
    match i, hi with
    | 0, _ => exact ⟨.leftCtrl, rfl⟩
    | 1, _ => exact ⟨.leftShift, rfl⟩
    | 2, _ => exact ⟨.leftAlt, rfl⟩
    | 3, _ => exact ⟨.leftGui, rfl⟩
    | 4, _ => exact ⟨.rightCtrl, rfl⟩
    | 5, _ => exact ⟨.rightShift, rfl⟩
    | 6, _ => exact ⟨.rightAlt, rfl⟩
    | 7, _ => exact ⟨.rightGui, rfl⟩
  obtain ⟨m, rfl⟩ := this
  exact h m

@[simp] theorem has_ofPred (p : Modifier → Bool) (m : Modifier) : (ofPred p).has m = p m := by
  cases m <;> simp [ofPred, Modifier.all] <;> grind [has_insert, has_empty]

end Modifiers

/-- The report bit of a modifier key, and nothing for any other key. -/
def KeyCode.modifiers (k : KeyCode) : Modifiers :=
  match k.modifier? with
  | some m => Modifiers.empty.insert m
  | none => .empty

/-! ## The modifiers attached to a key -/

/-- Modifiers attached to a key, as one byte. -/
@[ext] structure Combo where
  bits : BitVec 8
  deriving DecidableEq

namespace Combo

/-- No modifier attached. -/
def empty : Combo := ⟨0⟩

instance : Inhabited Combo := ⟨empty⟩

def ofByte (b : UInt8) : Combo := ⟨b.toBitVec⟩

def toByte (c : Combo) : UInt8 := ⟨c.bits⟩

def has (c : Combo) (f : Flag) : Bool := c.bits.getLsbD f.index

/-- Sets or clears one flag and keeps every other bit. -/
def put (f : Flag) (on : Bool) (c : Combo) : Combo :=
  if on then ⟨c.bits ||| BitVec.twoPow 8 f.index⟩ else ⟨c.bits &&& ~~~BitVec.twoPow 8 f.index⟩

def union (c d : Combo) : Combo := ⟨c.bits ||| d.bits⟩

/-- The combo with exactly the flags of which `p` holds. -/
def ofPred (p : Flag → Bool) : Combo := Flag.all.foldl (fun c f => c.put f (p f)) empty

/-- No modifier is attached; the side flag alone attaches none. -/
def isEmpty (c : Combo) : Bool := !(c.has .ctrl || c.has .shift || c.has .alt || c.has .gui)

/-- The report bits of a combo: its kinds, all on the side it names. -/
def toModifiers (c : Combo) : Modifiers := .ofPred fun m => c.has m.kind && m.onRight == c.has .right

/-- The combo of a set of modifiers: their kinds, on the right as soon as one of them is. -/
def ofModifiers (s : Modifiers) : Combo := .ofPred fun
  | .right => s.toList.any (·.onRight)
  | f => s.toList.any (·.kind == f)

/-- The debug text: every flag by name. The bits without a meaning are not shown. -/
def text (c : Combo) : String :=
  Text.record "ModifierCombination" (Flag.all.map fun f => (f.name, toString (c.has f)))

def ctrl : Combo := empty.put .ctrl true

def shift : Combo := empty.put .shift true

def gui : Combo := empty.put .gui true

@[simp] theorem has_empty (f : Flag) : empty.has f = false := by simp [empty, has]

@[simp] theorem has_put (c : Combo) (f g : Flag) (on : Bool) :
    (c.put f on).has g = if f = g then on else c.has g := by
  cases on <;> cases f <;> cases g <;> simp [put, has, Flag.index, Flag.ctorIdx]

@[simp] theorem has_union (c d : Combo) (f : Flag) : (c.union d).has f = (c.has f || d.has f) := by
  simp [union, has]

@[simp] theorem has_toModifiers (c : Combo) (m : Modifier) :
    c.toModifiers.has m = (c.has m.kind && m.onRight == c.has .right) := by
  simp [toModifiers]

end Combo

end ShiftRemap
