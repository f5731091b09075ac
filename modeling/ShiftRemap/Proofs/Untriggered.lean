import ShiftRemap.Proofs.Strokes

/-!
# Runs that trigger nothing

A press is hijacked if its key triggers a pair while the base layer is the highest one (`Keyboard.Triggers`).
In a run without such a press the table decides nothing: whatever it holds, the keyboard goes through the same
states as one with no pairs (`Quiet.run_unpaired`). Nothing is remembered as hijacked, so no release is taken
over either, and the two remappers agree on every event (`Quiet.filtered`).

Two facts carry this. No table answers for `no`, so an action without a chord triggers nothing
(`PairTable.Built.get?_no`); and the dances that a press interrupts switch no layer, so the layer that the
filter sees is the one before the press (`Keyboard.layers_seen`).
-/

namespace ShiftRemap

/-! ## Tables that can be made -/

/-- The tables that can be made: the empty one, and what inserting makes of them. -/
inductive PairTable.Built : PairTable → Prop
  | empty : Built .empty
  | insert {t t' : PairTable} {p : Pair} : Built t → t.insert p = .ok t' → Built t'

namespace PairTable

variable {t : PairTable}

theorem Built.canTrigger (h : t.Built) : ∀ p ∈ t.pairs, p.trigger.canTrigger = true := by
  induction h with
  | empty => exact fun p hp => absurd hp List.not_mem_nil
  | insert _ hins ih =>
    obtain ⟨hnew, _, _, hpairs⟩ := insert_eq_ok_iff.1 hins
    intro q hq
    rw [hpairs, List.mem_append, List.mem_singleton] at hq
    rcases hq with hq | rfl
    · exact ih q hq
    · exact hnew

/-- No table answers for the absence of a key. -/
theorem Built.get?_no (h : t.Built) : t.get? .no = none := by
  rw [get?_eq_none_iff]
  intro p hp he
  have hcan := h.canTrigger p hp
  rw [he] at hcan
  cases hcan

theorem Built.foldlM {t' : PairTable} {ps : List Pair} (h : t.Built) (hps : ps.foldlM PairTable.insert t = .ok t') :
    t'.Built := by
  induction ps generalizing t with
  | nil =>
    cases hps
    exact h
  | cons p ps ih =>
    obtain ⟨u, hp, hrest⟩ := foldlM_insert_cons hps
    exact ih (h.insert hp) hrest

/-- The tables of lists can be made. -/
theorem built_of_ofList {ps : List Pair} (h : ofList ps = .ok t) : t.Built := Built.empty.foldlM h

end PairTable

namespace Keyboard

open Remapper

variable {kb : Keyboard} {action : Action} {e : KeyEvent} {op : Op}

/-! ## Presses that trigger a pair -/

/-- A press whose key triggers a pair, while the base layer is the highest one. -/
def Triggers (kb : Keyboard) : Op → Prop
  | .key (.key chord) e =>
    e.pressed = true ∧ kb.highestLayer = kb.profile.baseLayer ∧ (kb.profile.pairs.get? chord.key).isSome = true
  | _ => False

instance (kb : Keyboard) (op : Op) : Decidable (kb.Triggers op) :=
  match op with
  | .key (.key _) _ => inferInstanceAs (Decidable (_ ∧ _ ∧ _))
  | .key .none _ | .key (.shortcut _) _ | .key (.layerTap _ _) _ | .setLayer _ | .finishDance | .receive _ =>
    .isFalse id

/-- The filter sees the layers as they were before the event. -/
theorem layers_seen (kb : Keyboard) (e : KeyEvent) : (kb.seen e).layers = kb.reporter.layers :=
  (Reporter.callsKeep_layers _).prepare (Reporter.updateMatrix_layers e kb.reporter)

theorem triggered?_eq_none (ht : kb.profile.pairs.get? .no = none) (hp : e.pressed = true)
    (hop : ¬ kb.Triggers (.key action e)) : triggered? kb.profile action (kb.seen e) = none := by
  have hlayer : KeyHost.highestLayer (kb.seen e) = kb.highestLayer := congrArg Layers.highest (layers_seen kb e)
  unfold triggered?
  rw [hlayer]
  split
  · rename_i hbase
    cases action with
    | key chord =>
      refine Option.not_isSome_iff_eq_none.1 fun hsome => hop ?_
      exact ⟨hp, beq_iff_eq.1 hbase, hsome⟩
    | none => exact ht
    | shortcut s => exact ht
    | layerTap n c => exact ht
  · rfl

/-! ## The keyboard without its pairs -/

/-- The keyboard with no pairs. -/
def unpaired (kb : Keyboard) : Keyboard := { kb with profile := { kb.profile with pairs := .empty } }

/-- The table can be made, and no press is remembered as hijacked. -/
structure Quiet (kb : Keyboard) : Prop where
  built : kb.profile.pairs.Built
  hijacked : kb.remapper.hijacked = {}

theorem Quiet.unpaired (h : kb.Quiet) : kb.unpaired.Quiet := ⟨.empty, h.hijacked⟩

theorem not_triggers_unpaired (kb : Keyboard) (op : Op) : ¬ kb.unpaired.Triggers op := by
  rcases op with ⟨action, e⟩ | n | _ | n
  · cases action with
    | key chord => exact fun h => Bool.false_ne_true h.2.2
    | none => exact id
    | shortcut s => exact id
    | layerTap n c => exact id
  · exact id
  · exact id
  · exact id

namespace Quiet

/-- An event that triggers nothing only passes the tracker, whatever the pairs are. -/
theorem filtered (h : kb.Quiet) (hop : ¬ kb.Triggers (.key action e)) :
    kb.remapper.filtered kb.profile action e (kb.reporter.updateMatrix e) =
      let t := kb.remapper.tracker.track e (kb.seen e)
      (false, { (kb.remapper.prepare e (kb.reporter.updateMatrix e)).1 with tracker := t.1 }, t.2) := by
  have htracker := tracker_prepare e kb.remapper (kb.reporter.updateMatrix e)
  show (kb.remapper.prepare e (kb.reporter.updateMatrix e)).1.filter kb.profile action e (kb.seen e) = _
  cases hp : e.pressed with
  | true =>
    rw [filter_press_left hp (triggered?_eq_none h.built.get?_no hp hop), htracker]
  | false =>
    have hprep : kb.remapper.prepare e (kb.reporter.updateMatrix e) = (kb.remapper, kb.reporter.updateMatrix e) := by
      unfold prepare
      rw [hp]
      rfl
    have hget : kb.remapper.hijacked.get? e.position = none := by rw [h.hijacked]; rfl
    rw [seen, hprep, filter_release_left hp hget]

/-- The keyboard without its pairs does the same with such an event. -/
theorem processKey_unpaired (h : kb.Quiet) (hop : ¬ kb.Triggers (.key action e)) :
    (kb.processKey action e).unpaired = kb.unpaired.processKey action e := by
  have hplain := h.unpaired.filtered (not_triggers_unpaired kb (.key action e))
  rw [(processKey_of_left (h.filtered hop)).2, (processKey_of_left hplain).2]
  -- of the profile, what is left to do reads the operating system alone
  rfl

theorem processKey (h : kb.Quiet) (hop : ¬ kb.Triggers (.key action e)) : (kb.processKey action e).Quiet := by
  rw [(processKey_of_left (h.filtered hop)).2]
  constructor
  · exact h.built
  · exact (hijacked_dispatch ..).trans ((hijacked_prepare ..).trans h.hijacked)

/-- One operation that triggers nothing. -/
theorem apply (h : kb.Quiet) (hop : ¬ kb.Triggers op) :
    (kb.apply op).Quiet ∧ (kb.apply op).unpaired = kb.unpaired.apply op := by
  cases op with
  | key action e => exact ⟨h.processKey hop, h.processKey_unpaired hop⟩
  | setLayer n => exact ⟨⟨h.built, h.hijacked⟩, rfl⟩
  | finishDance => exact ⟨⟨h.built, h.hijacked⟩, rfl⟩
  | receive n => exact ⟨⟨h.built, h.hijacked⟩, rfl⟩

/-- A run of operations that trigger nothing. -/
theorem run_unpaired {s : Session} (h : s.keyboard.Quiet) {ops : List Op}
    (hf : s.Follows (fun s op => ¬ s.keyboard.Triggers op) ops) :
    (s.keyboard.run ops).unpaired = s.keyboard.unpaired.run ops := by
  induction ops generalizing s with
  | nil => rfl
  | cons op ops ih =>
    obtain ⟨hstep, heq⟩ := h.apply hf.1
    rw [← Session.keyboard_apply] at hstep heq
    rw [run_cons, run_cons, ← heq, ← ih hstep hf.2, Session.keyboard_apply]

end Quiet

/-! ## What can be seen of a keyboard -/

/-- The keyboards offered the same reports and answer the same to every question. -/
structure LooksLike (kb kb' : Keyboard) : Prop where
  attempted : kb.reporter.attempted = kb'.reporter.attempted
  report : kb.report = kb'.report
  shiftHeld : kb.shiftHeld = kb'.shiftHeld
  highestLayer : kb.highestLayer = kb'.highestLayer
  dancePending : kb.dancePending = kb'.dancePending

theorem looksLike_unpaired (kb : Keyboard) : kb.LooksLike kb.unpaired := ⟨rfl, rfl, rfl, rfl, rfl⟩

/-- **Pairs are invisible unless they apply.** As long as no press triggers a pair on the base layer, a keyboard
looks like one without pairs after every operation. -/
theorem looksLike_of_untriggered {baseLayer : UInt8} {hostOs : HostOs} {table : PairTable} {capacity : Nat}
    {ops : List Op} (ht : table.Built)
    (hf : (Session.new ⟨baseLayer, hostOs, table⟩ capacity).Follows (fun s op => ¬ s.keyboard.Triggers op) ops) :
    ∀ done, done <+: ops →
      ((Keyboard.new ⟨baseLayer, hostOs, table⟩ capacity).run done).LooksLike
        ((Keyboard.new ⟨baseLayer, hostOs, .empty⟩ capacity).run done) := by
  rintro done ⟨rest, rfl⟩
  have hdone := (Session.Follows.append_iff.1 hf).1
  have hrun : ((Keyboard.new ⟨baseLayer, hostOs, table⟩ capacity).run done).unpaired =
      (Keyboard.new ⟨baseLayer, hostOs, .empty⟩ capacity).run done :=
    Quiet.run_unpaired (s := Session.new ⟨baseLayer, hostOs, table⟩ capacity) ⟨ht, rfl⟩ hdone
  rw [← hrun]
  exact looksLike_unpaired _

/-- A semicolon takes the place of the shifted comma. -/
def commaTable : PairTable := ⟨[⟨⟨.comma, .empty⟩, ⟨.semicolon, .empty⟩⟩]⟩

/-- Comma is pressed on layer 1 and released on layer 0, twice, while shift and a layer tap are down. -/
def commaElsewhere : List Op :=
  [.setLayer 1, .key (.key ⟨.leftShift, .empty⟩) (.press ⟨0, 0⟩), .key (.key ⟨.comma, .empty⟩) (.press ⟨0, 1⟩),
    .setLayer 0, .key (.layerTap 2 ⟨.comma, .empty⟩) (.press ⟨0, 2⟩), .receive 1,
    .key (.key ⟨.comma, .empty⟩) (.release ⟨0, 1⟩), .key (.key ⟨.comma, .empty⟩) (.release ⟨0, 1⟩), .finishDance,
    .key (.key ⟨.comma, .empty⟩) (.press ⟨0, 1⟩), .key (.layerTap 2 ⟨.comma, .empty⟩) (.release ⟨0, 2⟩)]

theorem looksLike_commaElsewhere :
    commaTable.Built ∧
      (Session.new ⟨0, .linux, commaTable⟩ 2).Follows (fun s op => ¬ s.keyboard.Triggers op) commaElsewhere ∧
      ((Keyboard.new ⟨0, .linux, commaTable⟩ 2).run commaElsewhere).LooksLike
        ((Keyboard.new ⟨0, .linux, .empty⟩ 2).run commaElsewhere) := by
  have hlist : PairTable.ofList commaTable.pairs = .ok commaTable := rfl
  have ht := PairTable.built_of_ofList hlist
  have hf : (Session.new ⟨0, .linux, commaTable⟩ 2).Follows (fun s op => ¬ s.keyboard.Triggers op) commaElsewhere := by
    decide +kernel
  exact ⟨ht, hf, looksLike_of_untriggered ht hf commaElsewhere List.prefix_rfl⟩

end Keyboard

end ShiftRemap
