import ShiftRemap.Proofs.Accepted
import ShiftRemap.Proofs.ActiveLayers
import ShiftRemap.Proofs.HijackRecord

/-!
# Base layers that take effect

A pair applies on the base layer, and settings may name any layer as theirs. A keyboard has `layerCount` layers,
and its highest layer is one of them in whatever state it is (`Layers.highest_lt`). So settings that name another
one are accepted, but no press is ever hijacked; with a layer that the keyboard has, setting that layer is
enough (`accepted_takesEffect_iff`).
-/

namespace ShiftRemap

open Keyboard Remapper

namespace Layers

variable {l : Layers} {n : UInt8}

/-- The layers that are asked, from the highest one down. -/
theorem mem_layers_iff : n ∈ ((List.range layerCount).map UInt8.ofNat).reverse ↔ n.toNat < layerCount := by
  rw [List.mem_reverse, List.mem_map]
  constructor
  · rintro ⟨i, hi, rfl⟩
    have hlt : i < 8 := List.mem_range.1 hi
    rw [UInt8.toNat_ofNat']
    exact Nat.lt_of_le_of_lt (Nat.mod_le _ _) hlt
  · intro hn
    exact ⟨n.toNat, List.mem_range.2 hn, UInt8.ofNat_toNat⟩

/-- The highest layer is one that the keyboard has. -/
theorem highest_lt (l : Layers) : l.highest.toNat < layerCount := by
  unfold highest
  cases hf : ((List.range layerCount).map UInt8.ofNat).reverse.find? l.isActive with
  | none => decide
  | some n => exact mem_layers_iff.1 (List.mem_of_find?_eq_some hf)

/-- A layer that is the only active one is the highest. -/
theorem highest_eq (hn : n.toNat < layerCount) (h : ∀ m, l.isActive m = true ↔ m = n) : l.highest = n := by
  unfold highest
  cases hf : ((List.range layerCount).map UInt8.ofNat).reverse.find? l.isActive with
  | none =>
    have hnone := List.find?_eq_none.1 hf n (mem_layers_iff.2 hn)
    exact absurd ((h n).2 rfl) hnone
  | some m => exact (h m).1 (List.find?_some hf)

end Layers

namespace Keyboard

/-- After some run, a press of the key is hijacked. -/
def TakesEffect (profile : Profile) (capacity : Nat) (k : KeyCode) : Prop :=
  ∃ ops : List Op, (∀ n, .receive n ∉ ops) ∧
    ∃ p, ((Keyboard.new profile capacity).run ops).takes (.key ⟨k, .empty⟩) (.press p) = true

/-- A trigger takes effect exactly if the keyboard has the base layer. -/
theorem takesEffect_iff {profile : Profile} {pair : Pair} {k : KeyCode} (hk : profile.pairs.get? k = some pair)
    (capacity : Nat) : TakesEffect profile capacity k ↔ profile.baseLayer.toNat < layerCount := by
  constructor
  · rintro ⟨ops, _, p, htakes⟩
    have hlayer := (takes_press_iff.1 htakes).1
    rw [run_profile] at hlayer
    rw [show profile.baseLayer = _ from hlayer.symm]
    exact Layers.highest_lt _
  · intro hlt
    have hset : (Reporter.setLayer profile.baseLayer (.new capacity)).layers.highest = profile.baseLayer :=
      Layers.highest_eq hlt fun m => by rw [Reporter.isActive_setLayer, if_pos hlt]
    exact ⟨[.setLayer profile.baseLayer], by simp, ⟨0, 0⟩, takes_press_iff.2 ⟨hset, Option.isSome_of_mem hk⟩⟩

end Keyboard

/-- The first pair of accepted settings is found by its trigger. -/
theorem Settings.exists_first {s : Settings} (h : s.check = .ok ()) (hne : s.pairs ≠ []) :
    ∃ profile first, s.profile = .ok profile ∧ profile.pairs.pairs.head? = some first ∧
      profile.pairs.get? first.normal.key = some first ∧ profile.baseLayer = s.baseLayer := by
  obtain ⟨profile, ha⟩ := Settings.profile_of_check h
  have hlen := (ha.reads h).length_eq
  have hpairs : profile.pairs.pairs ≠ [] := by
    intro hnil
    rw [hnil] at hlen
    exact hne (List.length_eq_zero_iff.1 hlen)
  obtain ⟨first, rest, hcons⟩ := List.exists_cons_of_ne_nil hpairs
  have hk : profile.pairs.get? first.normal.key = some first :=
    PairTable.get?_of_mem ha.nodup (by rw [hcons]; exact List.mem_cons_self ..)
  exact ⟨profile, first, ha.made, by rw [hcons]; rfl, hk, ha.baseLayer⟩

/-- **Accepted settings take effect** exactly if the keyboard has their base layer: then, and only then, there is a
run after which a press of the first pair's trigger is hijacked. -/
theorem accepted_takesEffect_iff {s : Settings} (h : s.check = .ok ()) (hne : s.pairs ≠ []) (capacity : Nat) :
    ∃ profile first, s.profile = .ok profile ∧ profile.pairs.pairs.head? = some first ∧
      (TakesEffect profile capacity first.normal.key ↔ s.baseLayer.toNat < layerCount) := by
  obtain ⟨profile, first, hmade, hfirst, hk, hlayer⟩ := Settings.exists_first h hne
  refine ⟨profile, first, hmade, hfirst, ?_⟩
  rw [← hlayer]
  exact takesEffect_iff hk capacity

/-- Settings that differ in their base layer only. -/
def Settings.onLayer (n : UInt8) : Settings where
  baseLayer := n
  pairs := [⟨"!", "?"⟩]

/-- The last layer that the keyboard has takes effect. -/
theorem takesEffect_eighthLayer :
    (Settings.onLayer 7).check = .ok () ∧ (Settings.onLayer 7).pairs ≠ [] ∧
      ∃ profile first, (Settings.onLayer 7).profile = .ok profile ∧ profile.pairs.pairs.head? = some first ∧
        TakesEffect profile 64 first.normal.key := by
  have hcheck : (Settings.onLayer 7).check = .ok () := by decide +kernel
  have hne : (Settings.onLayer 7).pairs ≠ [] := by simp [Settings.onLayer]
  obtain ⟨profile, first, hmade, hfirst, hiff⟩ := accepted_takesEffect_iff hcheck hne 64
  exact ⟨hcheck, hne, profile, first, hmade, hfirst, hiff.2 (by decide)⟩

/-- The layer after it is accepted as well, and never takes effect. -/
theorem not_takesEffect_ninthLayer :
    (Settings.onLayer 8).check = .ok () ∧ (Settings.onLayer 8).pairs ≠ [] ∧
      ∃ profile first, (Settings.onLayer 8).profile = .ok profile ∧ profile.pairs.pairs.head? = some first ∧
        ∀ capacity, ¬ TakesEffect profile capacity first.normal.key := by
  have hcheck : (Settings.onLayer 8).check = .ok () := by decide +kernel
  have hne : (Settings.onLayer 8).pairs ≠ [] := by simp [Settings.onLayer]
  obtain ⟨profile, first, hmade, hfirst, hk, hlayer⟩ := Settings.exists_first hcheck hne
  refine ⟨hcheck, hne, profile, first, hmade, hfirst, fun capacity heffect => ?_⟩
  have hlt := (takesEffect_iff hk capacity).1 heffect
  rw [hlayer] at hlt
  exact absurd hlt (by decide)

end ShiftRemap
