import ShiftRemap.Proofs.Registered

/-!
# What a host reads off the reports

A host sees a stroke where a report shows a key that the report before it does not show, and takes the left
shift bit of that report for the shift state of the stroke (`Report.fresh`, `Report.strokes`). As long as the
report last offered is that of the registered keys (`Reporter.Synced`), a call that sends nothing new adds no
stroke, and registering a plain key on empty slots adds one (`Synced.typed_register`). All other calls are silent.
-/

namespace ShiftRemap

namespace Report

/-- The keys that a report shows and the one before it does not, each with the left shift bit. -/
def fresh (prev r : Report) : List (UInt8 × Bool) :=
  (r.keycodes.toList.filter fun u => u ≠ 0 ∧ u ∉ prev.keycodes.toList).map (·, r.leftShift)

/-- The strokes that a host reads off reports that follow on `prev`. -/
def strokes : Report → List Report → List (UInt8 × Bool)
  | _, [] => []
  | prev, r :: rs => prev.fresh r ++ r.strokes rs

variable {prev r : Report}

theorem strokes_append (prev : Report) (rs : List Report) (r : Report) :
    prev.strokes (rs ++ [r]) = prev.strokes rs ++ (rs.getLastD prev).fresh r := by
  induction rs generalizing prev with
  | nil => simp [strokes]
  | cons r' rs ih => rw [List.cons_append, strokes, ih, strokes, List.append_assoc, List.getLastD_cons]

theorem fresh_eq_nil (h : ∀ u ∈ r.keycodes.toList, u ≠ 0 → u ∈ prev.keycodes.toList) : prev.fresh r = [] := by
  rw [fresh, List.filter_eq_nil_iff.2, List.map_nil]
  intro u hu
  simpa using h u hu

end Report

namespace Reporter

/-- The strokes that the host reads off the reports, those that were dropped included. -/
def typed (r : Reporter) : List (UInt8 × Bool) := Report.idle.strokes r.attempted

/-- The report last offered is that of the registered keys. -/
structure Synced (r : Reporter) : Prop where
  attempted : r.attempted.getLastD .idle = r.last
  last : r.last = r.report

variable {r r' : Reporter} {k : KeyCode}

theorem Synced.new (capacity : Nat) : (Reporter.new capacity).Synced where
  attempted := rfl
  last := rfl

/-! ## What offers nothing -/

/-- The reports that found the queue full, oldest first. -/
def dropped (r : Reporter) : List Report := r.notices.filterMap Notice.dropped?

/-- Nothing was offered to the queue. -/
structure SameOffers (r r' : Reporter) : Prop where
  queue : r'.queue = r.queue
  last : r'.last = r.last
  attempted : r'.attempted = r.attempted
  dropped : r'.dropped = r.dropped

/-- A notice that tells of no dropped report. -/
theorem sameOffers_hear {n : Notice} (hn : n.dropped? = none) (r : Reporter) : r.SameOffers (r.hear n) := by
  refine ⟨rfl, rfl, ?_, ?_⟩
  · have he : Entry.report? (.noted n) = none := by
      cases n with
      | reportDropped report => cases hn
      | _ => rfl
    simp [Reporter.attempted, hear, he]
  · simp [Reporter.dropped, notices, hear, Entry.notice?, hn]

theorem sameOffers_hold (k : KeyCode) (r : Reporter) : r.SameOffers (r.hold k) := by
  unfold hold
  split
  · exact ⟨rfl, rfl, rfl, rfl⟩
  · split
    · exact ⟨rfl, rfl, rfl, rfl⟩
    · split
      · exact sameOffers_hear rfl r
      · exact ⟨rfl, rfl, rfl, rfl⟩

theorem sameOffers_letGo (k : KeyCode) (r : Reporter) : r.SameOffers (r.letGo k) := by
  unfold letGo
  split
  · exact ⟨rfl, rfl, rfl, rfl⟩
  · split <;> exact ⟨rfl, rfl, rfl, rfl⟩

theorem sameOffers_putLayer (n : UInt8) (on : Bool) (r : Reporter) : r.SameOffers (r.putLayer n on) := by
  unfold putLayer
  split
  · exact ⟨rfl, rfl, rfl, rfl⟩
  · exact sameOffers_hear rfl r

theorem sameOffers_setLayer (n : UInt8) (r : Reporter) : r.SameOffers (r.setLayer n) := by
  unfold setLayer
  split
  · exact ⟨rfl, rfl, rfl, rfl⟩
  · exact sameOffers_hear rfl r

theorem sameOffers_updateMatrix (e : KeyEvent) (r : Reporter) : r.SameOffers (r.updateMatrix e) := by
  unfold updateMatrix
  split
  · split
    · exact ⟨rfl, rfl, rfl, rfl⟩
    · exact sameOffers_hear rfl r
  · exact ⟨rfl, rfl, rfl, rfl⟩

theorem Synced.same (h : r.Synced) (hs : r.SameOffers r') (hr : r'.report = r.report) :
    r'.Synced ∧ r'.typed = r.typed :=
  ⟨⟨by rw [hs.attempted, hs.last, h.attempted], by rw [hs.last, hr, h.last]⟩, by rw [typed, hs.attempted]; rfl⟩

/-- A notice that is no report leaves the reports as they are. -/
theorem Synced.hear (h : r.Synced) {n : Notice} (hn : n.dropped? = none) :
    (r.hear n).Synced ∧ (r.hear n).typed = r.typed :=
  h.same (sameOffers_hear hn r) rfl

/-- Nothing but the matrix changes with it. -/
theorem Synced.updateMatrix (h : r.Synced) (e : KeyEvent) :
    (r.updateMatrix e).Synced ∧ (r.updateMatrix e).typed = r.typed := by
  refine h.same (sameOffers_updateMatrix e r) ?_
  unfold Reporter.updateMatrix
  split
  · split <;> rfl
  · rfl

/-! ## Sending -/

theorem attempted_send (r : Reporter) :
    r.send.attempted = if r.report = r.last then r.attempted else r.attempted ++ [r.report] := by
  unfold send
  split
  · rfl
  · split <;> simp [attempted, Entry.report?]

/-- A change of the registered keys is followed by its report. -/
theorem Synced.send (h : r.Synced) (hs : r.SameOffers r') :
    r'.send.Synced ∧ r'.send.typed = r.typed ++ r.report.fresh r'.report := by
  have hlast : r'.attempted.getLastD .idle = r'.last := by rw [hs.attempted, hs.last, h.attempted]
  have hreport : r'.send.last = r'.send.report := by rw [last_send, report_send]
  rw [← h.last, ← hs.last, typed, typed, ← hs.attempted, attempted_send]
  split
  · rename_i he
    have hnil : r'.last.fresh r'.report = [] := Report.fresh_eq_nil fun u hu _ => by rwa [← he]
    refine ⟨⟨?_, hreport⟩, by rw [hnil, List.append_nil]⟩
    rw [attempted_send, if_pos he, hlast, last_send, he]
  · rename_i hne
    refine ⟨⟨?_, hreport⟩, by rw [Report.strokes_append, hlast]⟩
    rw [attempted_send, if_neg hne, last_send]
    simp

/-! ## Registering -/

namespace Synced

theorem register (h : r.Synced) (k : KeyCode) :
    (KeyHost.register k r).Synced ∧
      (KeyHost.register k r).typed = r.typed ++ r.report.fresh (KeyHost.register k r).report := by
  rw [show (KeyHost.register k r).report = (r.hold k).report from report_send _]
  exact h.send (sameOffers_hold k r)

/-- Slots that show no key that they did not show before add no stroke. -/
theorem fresh_report (hk : ∀ j ∈ r'.slots.cells, j ≠ .no → j ∈ r.slots.cells) : r.report.fresh r'.report = [] := by
  refine Report.fresh_eq_nil fun u hu h0 => ?_
  rw [report, Slots.toList_usages] at hu ⊢
  obtain ⟨j, hj, rfl⟩ := List.mem_map.1 hu
  refine List.mem_map_of_mem (hk j hj fun hno => h0 ?_)
  rw [hno]
  rfl

theorem unregister (h : r.Synced) (k : KeyCode) :
    (KeyHost.unregister k r).Synced ∧ (KeyHost.unregister k r).typed = r.typed := by
  obtain ⟨hs, ht⟩ := h.send (sameOffers_letGo k r)
  refine ⟨hs, ht.trans ?_⟩
  rw [fresh_report, List.append_nil]
  · intro j hj h0
    unfold letGo at hj
    split at hj
    · exact hj
    · split at hj
      · exact hj
      · exact Slots.mem_of_mem_clear h0 hj

theorem slots_unregister_empty (hs : r.slots = .empty) (k : KeyCode) : (KeyHost.unregister k r).slots = .empty := by
  rw [show (KeyHost.unregister k r).slots = (r.letGo k).slots from slots_send _]
  unfold letGo
  split
  · exact hs
  · split
    · exact hs
    · rename_i h0
      exact Slots.ext (by rw [hs]; exact List.replace_of_not_mem fun hm => h0 (List.eq_of_mem_replicate hm))

/-- Registering a modifier key shows no new key. -/
theorem register_modifier (h : r.Synced) {m : Modifier} (hm : k.modifier? = some m) :
    (KeyHost.register k r).Synced ∧ (KeyHost.register k r).typed = r.typed := by
  obtain ⟨hs, ht⟩ := h.register k
  rw [fresh_report, List.append_nil] at ht
  · exact ⟨hs, ht⟩
  · intro j hj _
    rw [show (KeyHost.register k r).slots = (r.hold k).slots from slots_send _] at hj
    unfold hold at hj
    rw [hm] at hj
    exact hj

theorem setShift (h : r.Synced) (on : Bool) :
    (KeyHost.setShift on r).Synced ∧ (KeyHost.setShift on r).typed = r.typed := by
  cases on with
  | true => exact h.register_modifier (KeyCode.modifier?_key .leftShift)
  | false => exact h.unregister _

/-- A plain key that is registered on empty slots adds its stroke. -/
theorem register_empty (h : r.Synced) (hs : r.slots = .empty) (hk : k.modifier? = none) (h0 : k ≠ .no) :
    (KeyHost.register k r).Synced ∧
      (KeyHost.register k r).typed = r.typed ++ [(k.usage, r.mods.has .leftShift)] := by
  obtain ⟨hsync, ht⟩ := h.register k
  refine ⟨hsync, ht.trans (congrArg (r.typed ++ ·) ?_)⟩
  have hhold : r.hold k = { r with slots := Slots.empty.place k } := by
    unfold hold
    simp only [hk, hs, h0, Slots.holds, Slots.isFull, Slots.empty]
    simp [h0]
  have hu : k.usage ≠ 0 := fun hu => h0 (KeyCode.usage_injective hu)
  rw [show (KeyHost.register k r).report = (r.hold k).report from report_send _, hhold]
  have hold : r.report.keycodes.toList = List.replicate 6 0 := by
    rw [report, Slots.toList_usages, hs]
    rfl
  have hnew : (Slots.empty.place k).usages.toList = k.usage :: List.replicate 5 0 := by
    rw [Slots.toList_usages]
    rfl
  rw [Report.fresh, hold]
  simp only [report, hnew]
  rw [List.filter_cons_of_pos (by simpa using hu), List.filter_eq_nil_iff.2 (by simp)]
  rfl

end Synced

end Reporter

end ShiftRemap
