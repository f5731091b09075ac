import ShiftRemap.Key.Chord

/-!
# Actions

What a position of the keyboard is bound to: nothing, a chord, an editing shortcut whose chord depends on
the host's operating system, or a layer tap, which types a key or holds a layer.
-/

namespace ShiftRemap

/-- The operating system of the host. -/
inductive HostOs
  | linux | windows | macOs
  deriving DecidableEq

namespace HostOs

instance : Inhabited HostOs := ⟨.linux⟩

def all : List HostOs := [.linux, .windows, .macOs]

def name : HostOs → String
  | .linux => "Linux"
  | .windows => "Windows"
  | .macOs => "MacOs"

def ofName? (s : String) : Option HostOs := all.find? (·.name == s)

end HostOs

/-- An editing command that has a chord on every system. -/
inductive Shortcut
  | copy | cut | paste | undo | redo | findNext | findPrev
  deriving DecidableEq

namespace Shortcut

def all : List Shortcut := [.copy, .cut, .paste, .undo, .redo, .findNext, .findPrev]

def name : Shortcut → String
  | .copy => "Copy"
  | .cut => "Cut"
  | .paste => "Paste"
  | .undo => "Undo"
  | .redo => "Redo"
  | .findNext => "FindNext"
  | .findPrev => "FindPrev"

def ofName? (s : String) : Option Shortcut := all.find? (·.name == s)

/-- The chord of the shortcut. The clipboard chords are the same on every system; for the others the
command key of macOS takes the place of control. -/
def chord (s : Shortcut) (os : HostOs) : Chord :=
  let command := if os = .macOs then Combo.gui else Combo.ctrl
  match s with
  | .copy => ⟨.insert, .ctrl⟩
  | .cut => .shifted .delete
  | .paste => .shifted .insert
  | .undo => ⟨.keyZ, command⟩
  | .redo => ⟨.keyZ, Combo.shift.union command⟩
  | .findNext => if os = .macOs then ⟨.keyG, .gui⟩ else ⟨.f3, .empty⟩
  | .findPrev => if os = .macOs then ⟨.keyG, Combo.shift.union .gui⟩ else .shifted .f3

end Shortcut

/-- What a position is bound to. -/
inductive Action
  | none
  /-- A chord, held as long as the key is. -/
  | key (chord : Chord)
  /-- A shortcut, typed on the press. -/
  | shortcut (shortcut : Shortcut)
  /-- A key that types `chord` when tapped and activates `layer` when held. -/
  | layerTap (layer : UInt8) (chord : Chord)
  deriving DecidableEq

instance : Inhabited Action := ⟨.none⟩

end ShiftRemap
