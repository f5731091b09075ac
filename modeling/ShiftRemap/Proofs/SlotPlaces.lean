import Mathlib.Data.List.Induction
import ShiftRemap.Host.Recorder
import ShiftRemap.Proofs.ReportChanges
import ShiftRemap.Proofs.Strokes

/-!
# The places of the registered keys

Looked at through the calls made so far, the slots are a set of at most six keys with places that do not move. A key is
in it if it was registered when there was room for it and has not been unregistered since (`registered_performAll`);
the slot it was given, the lowest free one, is its slot until then (`getElem?_performAll`). The modifier bits are such
a set too, in which there is always room.

Searching the slots for a key finds all there is of it, as no key is in two of them: that is `Slots.Tidy`, which the
calls keep in any order.
-/

namespace ShiftRemap

/-! ## Lists of calls -/

namespace HostCall

section Host

variable {σ : Type} [KeyHost σ]

/-- Makes the call. -/
def perform (h : σ) : HostCall → σ
  | register k => KeyHost.register k h
  | unregister k => KeyHost.unregister k h
  | activateLayer n => KeyHost.activateLayer n h
  | deactivateLayer n => KeyHost.deactivateLayer n h

/-- Makes the calls one after the other. -/
def performAll (h : σ) (cs : List HostCall) : σ := cs.foldl perform h

theorem performAll_concat (h : σ) (cs : List HostCall) (c : HostCall) :
    performAll h (cs ++ [c]) = perform (performAll h cs) c :=
  List.foldl_append

theorem performAll_append (h : σ) (cs later : List HostCall) :
    performAll h (cs ++ later) = performAll (performAll h cs) later :=
  List.foldl_append

end Host

/-- The key was registered by a call before which `ok` holds of the calls so far, and no later call unregistered it. -/
def RegisteredSince (ok : List HostCall → Prop) (cs : List HostCall) (k : KeyCode) : Prop :=
  ∃ before after, cs = before ++ register k :: after ∧ ok before ∧ unregister k ∉ after

variable {ok : List HostCall → Prop} {cs : List HostCall} {c : HostCall} {k : KeyCode}

theorem not_registeredSince_nil : ¬ RegisteredSince ok [] k := by
  rintro ⟨before, after, h, -⟩
  exact absurd h.symm (by simp)

/-- What one more call makes of it. -/
theorem registeredSince_concat :
    RegisteredSince ok (cs ++ [c]) k ↔ c = register k ∧ ok cs ∨ c ≠ unregister k ∧ RegisteredSince ok cs k := by
  constructor
  · rintro ⟨before, after, h, hok, hafter⟩
    rcases after.eq_nil_or_concat with rfl | ⟨after, d, rfl⟩
    · obtain ⟨rfl, rfl⟩ := List.append_singleton_inj.1 h
      exact .inl ⟨rfl, hok⟩
    · rw [List.concat_eq_append, List.mem_append, List.mem_singleton, not_or] at hafter
      rw [List.concat_eq_append, ← List.cons_append, ← List.append_assoc] at h
      obtain ⟨rfl, rfl⟩ := List.append_singleton_inj.1 h
      exact .inr ⟨Ne.symm hafter.2, before, after, rfl, hok, hafter.1⟩
  · rintro (⟨rfl, hok⟩ | ⟨hc, before, after, rfl, hok, hafter⟩)
    · exact ⟨cs, [], rfl, hok, List.not_mem_nil⟩
    · refine ⟨before, after ++ [c], by simp, hok, ?_⟩
      rw [List.mem_append, List.mem_singleton, not_or]
      exact ⟨hafter, Ne.symm hc⟩

theorem registeredSince_congr {ok' : List HostCall → Prop} (h : ∀ before, ok before ↔ ok' before) :
    RegisteredSince ok cs k ↔ RegisteredSince ok' cs k := by
  rw [show ok = ok' from funext fun before => propext (h before)]

end HostCall

open HostCall

namespace CallsKeep

variable {σ : Type} [KeyHost σ] {P : σ → Prop} {h : σ}

theorem perform (hP : CallsKeep P) (hh : P h) (c : HostCall) : P (perform h c) := by
  cases c with
  | register k => exact hP.register hh
  | unregister k => exact hP.unregister hh
  | activateLayer n => exact hP.activateLayer hh
  | deactivateLayer n => exact hP.deactivateLayer hh

theorem performAll (hP : CallsKeep P) (hh : P h) (cs : List HostCall) : P (performAll h cs) := by
  induction cs generalizing h with
  | nil => exact hh
  | cons c cs ih => exact ih (hP.perform hh c)

end CallsKeep

namespace Reporter

variable {r : Reporter} {j k : KeyCode} {c : HostCall} {i : Nat}

/-! ## One call -/

/-- A key is registered by its own call, and otherwise it is registered if it was and is not unregistered. -/
theorem registered_perform (hs : r.slots.Tidy) :
    (perform r c).registered k ↔ c = .register k ∧ r.hasRoom k ∨ c ≠ .unregister k ∧ r.registered k := by
  cases c with
  | register j =>
    simp only [perform, registered_register, HostCall.register.injEq, ne_eq, reduceCtorEq, not_false_eq_true, true_and]
    rw [or_comm, eq_comm (a := k)]
    exact or_congr_left (and_congr_right fun hj => by rw [hj])
  | unregister j =>
    simp only [perform, registered_unregister hs, reduceCtorEq, false_and, false_or, ne_eq, HostCall.unregister.injEq]
    rw [and_comm, eq_comm (a := k)]
  | activateLayer n =>
    simp only [ne_eq, reduceCtorEq, false_and, false_or, not_false_eq_true, true_and]
    exact registered_putLayer
  | deactivateLayer n =>
    simp only [ne_eq, reduceCtorEq, false_and, false_or, not_false_eq_true, true_and]
    exact registered_putLayer

/-- The key has a slot, or fewer than six other keys have one. -/
def FindsSlot (r : Reporter) (k : KeyCode) : Prop :=
  k ∈ r.slots.cells ∨ (r.slots.cells.filter fun j => j ≠ .no ∧ j ≠ k).length < 6

theorem hasRoom_iff_findsSlot (hk : k ≠ .no) (hm : k.modifier? = none) : r.hasRoom k ↔ r.FindsSlot k := by
  have hroom : r.hasRoom k ↔ k ∈ r.slots.cells ∨ .no ∈ r.slots.cells := by simp [hasRoom, hm, hk]
  rw [hroom]
  -- with six slots, fewer than six hold other keys exactly if one of them is free or holds this key
  refine or_congr_right' fun hnew => ?_
  have hlen := List.length_filter_lt_length_iff_exists (p := fun j => decide (j ≠ .no ∧ j ≠ k)) (l := r.slots.cells)
  rw [r.slots.length_eq] at hlen
  rw [hlen]
  constructor
  · exact fun h => ⟨.no, h, by simp⟩
  · rintro ⟨j, hj, hp⟩
    have hjk : j ≠ k := by
      rintro rfl
      exact hnew hj
    obtain rfl : j = .no := by simpa [hjk] using hp
    exact hj

/-- Registering any key leaves a key in its slot. -/
theorem getElem?_hold (hk : k ≠ .no) (h : r.slots.cells[i]? = some k) : (r.hold j).slots.cells[i]? = some k := by
  unfold hold
  split
  · exact h
  · split
    · exact h
    · rename_i hj
      split
      · exact h
      · -- a key that is put into a slot had none, so it is not this one
        have hkj : k ≠ j := by
          rintro rfl
          exact hj (.inr (List.contains_iff_mem.2 (List.mem_of_getElem? h)))
        exact (Slots.getElem?_replace hk hkj).2 h

/-- Unregistering another key leaves a key in its slot. -/
theorem getElem?_letGo (hk : k ≠ .no) (hj : j ≠ k) (h : r.slots.cells[i]? = some k) :
    (r.letGo j).slots.cells[i]? = some k := by
  unfold letGo
  split
  · exact h
  · split
    · exact h
    · exact (Slots.getElem?_replace (Ne.symm hj) hk).2 h

/-- A key stays in its slot as long as it is not unregistered. -/
theorem getElem?_perform (hk : k ≠ .no) (hc : c ≠ .unregister k) (h : r.slots.cells[i]? = some k) :
    (perform r c).slots.cells[i]? = some k := by
  cases c with
  | register j =>
    rw [show (perform r (.register j)).slots = (r.hold j).slots from slots_send _]
    exact getElem?_hold hk h
  | unregister j =>
    have hj : j ≠ k := by
      rintro rfl
      exact hc rfl
    rw [show (perform r (.unregister j)).slots = (r.letGo j).slots from slots_send _]
    exact getElem?_letGo hk hj h
  | activateLayer n =>
    rw [show (perform r (.activateLayer n)).slots = r.slots from putLayer_slots n true r]
    exact h
  | deactivateLayer n =>
    rw [show (perform r (.deactivateLayer n)).slots = r.slots from putLayer_slots n false r]
    exact h

/-- A key that has no slot takes the lowest free one. -/
theorem cells_register_new (hk : k ≠ .no) (hm : k.modifier? = none) (hnew : k ∉ r.slots.cells)
    (hfree : .no ∈ r.slots.cells) :
    (KeyHost.register k r).slots.cells = r.slots.cells.set (r.slots.cells.idxOf .no) k := by
  have hhold : r.hold k = { r with slots := r.slots.place k } := by
    simp [hold, hm, hk, Slots.holds, Slots.isFull, hnew, hfree]
  rw [show (KeyHost.register k r).slots = (r.hold k).slots from slots_send _, hhold]
  exact Slots.replace_eq_set_idxOf .no k r.slots.cells

/-! ## All calls -/

variable {n : Nat} {cs : List HostCall}

theorem tidy_performAll (n : Nat) (cs : List HostCall) : (performAll (new n) cs).slots.Tidy :=
  callsKeep_tidy.performAll Slots.tidy_empty cs

/-- The registered keys are those registered when there was room for them, and not unregistered since. -/
theorem registered_performAll :
    (performAll (new n) cs).registered k ↔ RegisteredSince (fun before => (performAll (new n) before).hasRoom k) cs k := by
  induction cs using List.reverseRecOn with
  | nil => exact iff_of_false (not_registered_new n k) not_registeredSince_nil
  | append_singleton cs c ih =>
    rw [performAll_concat, registered_perform (tidy_performAll n cs), ih, registeredSince_concat]

theorem getElem?_performAll (hk : k ≠ .no) (hcs : .unregister k ∉ cs) (h : r.slots.cells[i]? = some k) :
    (performAll r cs).slots.cells[i]? = some k := by
  induction cs generalizing r with
  | nil => exact h
  | cons c cs ih =>
    rw [List.mem_cons, not_or] at hcs
    exact ih hcs.2 (getElem?_perform hk (Ne.symm hcs.1) h)

/-- After the calls `cs` the slots are a set of at most six keys with places that do not move, and the modifier bits are
a set of modifier keys. The reporter that comes of a list of calls is given by `run`. -/
structure KeepsPlaces (run : List HostCall → Reporter) (cs : List HostCall) : Prop where
  plain : ∀ k ∈ (run cs).slots.cells, k.isModifier = false
  once : ∀ k, k ≠ .no → (run cs).slots.cells.count k ≤ 1
  /-- A key has a slot if it was registered when it had one or fewer than six others had, and was not unregistered
  since. -/
  mem_iff : ∀ k, k ≠ .no → k.isModifier = false →
    (k ∈ (run cs).slots.cells ↔ RegisteredSince (fun before => (run before).FindsSlot k) cs k)
  /-- Whatever comes next, a key keeps its slot until it is unregistered. -/
  stays : ∀ k (i : Nat) later, k ≠ .no → .unregister k ∉ later →
    (run cs).slots.cells[i]? = some k → (run (cs ++ later)).slots.cells[i]? = some k
  /-- The next key that is new takes the lowest free slot. -/
  lowest : ∀ k, k ≠ .no → k.isModifier = false → k ∉ (run cs).slots.cells → .no ∈ (run cs).slots.cells →
    (run (cs ++ [.register k])).slots.cells = (run cs).slots.cells.set ((run cs).slots.cells.idxOf .no) k
  /-- The modifier byte is that of the modifier keys that were registered and not unregistered since. -/
  modifiers : ∀ m, (run cs).report.has m = true ↔ RegisteredSince (fun _ => True) cs m.key

/-- **Stable places.** After any calls, among them repeated ones, calls for keys that are not registered and calls that
find no slot free, the slots are a set of at most six keys with places that do not move. -/
theorem keepsPlaces (n : Nat) (cs : List HostCall) : KeepsPlaces (performAll (new n)) cs where
  plain k hk := KeyCode.isModifier_eq_false_iff.2 ((tidy_performAll n cs).plain k hk)
  once := (tidy_performAll n cs).once
  mem_iff k hk hm := by
    have hplain := KeyCode.modifier?_eq_none hm
    have hreg : (performAll (new n) cs).registered k ↔ _ := registered_performAll
    rw [registered_plain hplain, and_iff_right hk] at hreg
    exact hreg.trans (registeredSince_congr fun before => hasRoom_iff_findsSlot hk hplain)
  stays k i later hk hlater h := by
    rw [performAll_append]
    exact getElem?_performAll hk hlater h
  lowest k hk hm hnew hfree := by
    rw [performAll_concat]
    exact cells_register_new hk (KeyCode.modifier?_eq_none hm) hnew hfree
  modifiers m := by
    have hroom (before : List HostCall) : (performAll (new n) before).hasRoom m.key :=
      fun hm => absurd hm (by rw [KeyCode.modifier?_key]; exact Option.some_ne_none m)
    rw [has_report, ← registered_key, registered_performAll]
    exact registeredSince_congr fun before => iff_true_intro (hroom before)

/-- Of seven letters the last finds no slot, until one of the others has left its own. Among them come both shift keys,
a letter that is registered twice, one that is unregistered without being registered, and no key. -/
def rollover : List HostCall :=
  [.register .keyA, .register .keyB, .register .leftShift, .register .keyC, .register .keyB, .register .no,
    .register .keyD, .register .keyE, .register .keyF, .register .keyG, .unregister .keyH, .register .rightShift,
    .unregister .leftShift, .unregister .keyC, .activateLayer 1, .register .keyG]

theorem keepsPlaces_rollover :
    (performAll (new 4) rollover).slots.cells = [.keyA, .keyB, .keyG, .keyD, .keyE, .keyF] ∧
      RegisteredSince (fun before => (performAll (new 4) before).FindsSlot .keyG) rollover .keyG ∧
      RegisteredSince (fun _ => True) rollover .rightShift ∧ ¬ RegisteredSince (fun _ => True) rollover .leftShift ∧
      (performAll (new 4) (rollover ++ [.unregister .keyA, .register .keyH])).slots.cells[2]? = some .keyG := by
  have h := keepsPlaces 4 rollover
  have hcells : (performAll (new 4) rollover).slots.cells = [.keyA, .keyB, .keyG, .keyD, .keyE, .keyF] := by
    decide +kernel
  refine ⟨hcells, (h.mem_iff .keyG (by decide) rfl).1 (by rw [hcells]; decide),
    (h.modifiers .rightShift).1 (by decide +kernel), fun hr => ?_,
    h.stays .keyG 2 _ (by decide) (by decide) (by rw [hcells]; rfl)⟩
  exact absurd ((h.modifiers .leftShift).2 hr) (by decide +kernel)

end Reporter

end ShiftRemap
