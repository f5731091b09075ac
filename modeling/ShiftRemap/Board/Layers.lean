/-!
# Layers

Which of the keyboard's layers are active. Layer 0 lies under all of them: the highest active layer is 0
if none is active.
-/

namespace ShiftRemap

/-- The number of layers of the keyboard. -/
def layerCount : Nat := 8

/-- The layers that are active. -/
structure Layers where
  on : Vector Bool layerCount
  deriving DecidableEq

namespace Layers

/-- No layer is active. -/
def none : Layers := ⟨.replicate layerCount false⟩

/-- The layer is active; a layer that the keyboard does not have never is. -/
def isActive (l : Layers) (n : UInt8) : Bool := l.on[n.toNat]?.getD false

/-- Activates or deactivates one layer; `none` if the keyboard does not have it. -/
def put? (n : UInt8) (active : Bool) (l : Layers) : Option Layers :=
  if h : n.toNat < layerCount then some ⟨l.on.set n.toNat active⟩ else .none

/-- Makes one layer the only active one; `none` if the keyboard does not have it. -/
def only? (n : UInt8) : Option Layers := none.put? n true

/-- The highest active layer. -/
def highest (l : Layers) : UInt8 :=
  (((List.range layerCount).map UInt8.ofNat).reverse.find? l.isActive).getD 0

theorem isActive_none (n : UInt8) : none.isActive n = false := by
  simp only [isActive, none, Vector.getElem?_replicate]
  split <;> rfl

theorem isActive_put? {l l' : Layers} {m n : UInt8} {b : Bool} (h : l.put? n b = some l') :
    l'.isActive m = if m = n then b else l.isActive m := by
  unfold put? at h
  split at h <;> cases h
  simp only [isActive, Vector.getElem?_set]
  grind [UInt8.toNat_inj]

end Layers

end ShiftRemap
