import ShiftRemap.Host.Basic

/-!
# Recording hosts

A `Recorder` runs another host and writes down, in order, every call that changes keys or layers, and
apart from them every notice. A `BenchHost` is the least host to put under it: it is told how many keys
are down, and keeps one layer and the modifiers.
-/

namespace ShiftRemap

/-- A call that changes the registered keys or the active layers. -/
inductive HostCall
  | register (key : KeyCode)
  | unregister (key : KeyCode)
  | activateLayer (layer : UInt8)
  | deactivateLayer (layer : UInt8)
  deriving DecidableEq

def HostCall.text : HostCall → String
  | register key => "+" ++ key.name
  | unregister key => "-" ++ key.name
  | activateLayer layer => "on " ++ toString layer
  | deactivateLayer layer => "off " ++ toString layer

/-- A host, with what it was asked to do so far. -/
structure Recorder (σ : Type) where
  host : σ
  calls : Array HostCall := #[]
  notices : Array Notice := #[]

namespace Recorder

variable {σ : Type} [KeyHost σ]

/-- Writes a call down and passes it on. -/
def call (c : HostCall) (f : σ → σ) (r : Recorder σ) : Recorder σ :=
  { r with host := f r.host, calls := r.calls.push c }

instance : KeyHost (Recorder σ) where
  anyKeyHeld r := KeyHost.anyKeyHeld r.host
  modifiers r := KeyHost.modifiers r.host
  highestLayer r := KeyHost.highestLayer r.host
  register k := call (.register k) (KeyHost.register k)
  unregister k := call (.unregister k) (KeyHost.unregister k)
  activateLayer n := call (.activateLayer n) (KeyHost.activateLayer n)
  deactivateLayer n := call (.deactivateLayer n) (KeyHost.deactivateLayer n)
  note n r := { r with host := KeyHost.note n r.host, notices := r.notices.push n }

/-- The same host with nothing written down. -/
def forget (r : Recorder σ) : Recorder σ := ⟨r.host, #[], #[]⟩

end Recorder

/-- A host with one layer, which is told how many keys are down. -/
structure BenchHost where
  keysDown : Nat := 0
  layer : UInt8 := 0
  mods : Modifiers := .empty

namespace BenchHost

instance : KeyHost BenchHost where
  anyKeyHeld h := 0 < h.keysDown
  modifiers h := h.mods
  highestLayer h := h.layer
  register k h := { h with mods := h.mods.union k.modifiers }
  unregister k h := { h with mods := h.mods.inter k.modifiers.compl }
  activateLayer n h := { h with layer := n }
  deactivateLayer n h := if h.layer = n then { h with layer := 0 } else h
  note _ h := h

end BenchHost

end ShiftRemap
