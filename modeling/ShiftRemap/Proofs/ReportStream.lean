import Mathlib.Data.List.Chain
import ShiftRemap.Proofs.ReportChanges
import ShiftRemap.Proofs.RunInvariant
import ShiftRemap.Proofs.SentReports

/-!
# The stream of reports

Every report that a keyboard offers to its queue differs from the one before it in exactly one place, and the
report of the registered keys is always the one offered last (`Reporter.Streaming`). Both are kept by each
call: it changes at most one place of the report, and a changed report is offered at once.

What becomes of the offers is told by a queue that is watched (`WatchedQueue`): it is given the offers of a
run and the receives between them, and writes down how many reports were waiting at each offer. Whatever
happens at a queue, what was taken and what still waits are the offers that met a free place, in their order
(`WatchedQueue.Lawful`); so it does not matter here whether reports are taken between the operations of a run or
between the offers of one (`WatchedQueue.out_of_play`). The queue of a keyboard goes through the same states, and
one notice of a dropped report is heard for each offer that met a full queue (`WatchedQueue.Matches`).
-/

namespace ShiftRemap

open Keyboard

/-! ## A watched queue -/

/-- What happens at a report queue. -/
inductive QueueEvent
  | offer (report : Report)
  /-- At most so many reports are taken. -/
  | take (count : Nat)

/-- The report that is offered. -/
def QueueEvent.report? : QueueEvent → Option Report
  | .offer r => some r
  | .take _ => none

/-- A report queue, the reports that were taken from it, and those that were offered to it, each with the
number of reports that were waiting at that moment. -/
structure WatchedQueue where
  queue : ReportQueue
  taken : List Report := []
  offers : List (Report × Nat) := []

namespace WatchedQueue

def step (w : WatchedQueue) : QueueEvent → WatchedQueue
  | .offer r =>
    { w with
      queue := (w.queue.push? r).getD w.queue
      offers := w.offers ++ [(r, w.queue.waiting.length)] }
  | .take n => { w with queue := (w.queue.take n).2, taken := w.taken ++ (w.queue.take n).1 }

/-- The queue after a list of events. -/
def play (w : WatchedQueue) (es : List QueueEvent) : WatchedQueue := es.foldl step w

/-- The reports that were offered while there was a free place. -/
def entered (w : WatchedQueue) : List Report := (w.offers.filter (·.2 ≠ w.queue.capacity)).map (·.1)

/-- The reports that were offered while the queue was full. -/
def missed (w : WatchedQueue) : List Report := (w.offers.filter (·.2 = w.queue.capacity)).map (·.1)

variable {w : WatchedQueue}

theorem play_append (w : WatchedQueue) (es es' : List QueueEvent) : w.play (es ++ es') = (w.play es).play es' :=
  List.foldl_append

/-- What was taken and what still waits are the offers that met a free place, in their order. -/
structure Lawful (w : WatchedQueue) : Prop where
  bounded : w.queue.waiting.length ≤ w.queue.capacity
  kept : w.taken ++ w.queue.waiting = w.entered

theorem Lawful.new (capacity : Nat) : Lawful { queue := .empty capacity } where
  bounded := Nat.zero_le _
  kept := rfl

theorem capacity_step (w : WatchedQueue) (e : QueueEvent) : (w.step e).queue.capacity = w.queue.capacity := by
  cases e with
  | take n => rfl
  | offer r =>
    unfold step ReportQueue.push?
    dsimp only
    split <;> rfl

theorem waiting_offer (w : WatchedQueue) (r : Report) :
    (w.step (.offer r)).queue.waiting =
      if w.queue.waiting.length < w.queue.capacity then w.queue.waiting ++ [r] else w.queue.waiting := by
  unfold step ReportQueue.push?
  dsimp only
  split <;> rfl

theorem entered_offer (h : w.Lawful) (r : Report) :
    (w.step (.offer r)).entered =
      if w.queue.waiting.length < w.queue.capacity then w.entered ++ [r] else w.entered := by
  have hle := h.bounded
  rw [entered, capacity_step]
  by_cases hroom : w.queue.waiting.length < w.queue.capacity
  · have hne : w.queue.waiting.length ≠ w.queue.capacity := by omega
    simp [step, entered, hroom, hne]
  · have he : w.queue.waiting.length = w.queue.capacity := by omega
    simp [step, entered, he]

theorem missed_offer (h : w.Lawful) (r : Report) :
    (w.step (.offer r)).missed =
      if w.queue.waiting.length < w.queue.capacity then w.missed else w.missed ++ [r] := by
  have hle := h.bounded
  rw [missed, capacity_step]
  by_cases hroom : w.queue.waiting.length < w.queue.capacity
  · have hne : w.queue.waiting.length ≠ w.queue.capacity := by omega
    simp [step, missed, hroom, hne]
  · have he : w.queue.waiting.length = w.queue.capacity := by omega
    simp [step, missed, he]

theorem Lawful.step (h : w.Lawful) (e : QueueEvent) : (w.step e).Lawful := by
  cases e with
  | take n =>
    constructor
    · have := h.bounded
      simp only [WatchedQueue.step, ReportQueue.take, List.length_drop]
      omega
    · have hk := h.kept
      rw [← ReportQueue.take_append_waiting n w.queue, ← List.append_assoc] at hk
      exact hk
  | offer r =>
    have hle := h.bounded
    constructor
    · rw [capacity_step, waiting_offer]
      split
      · rw [List.length_append, List.length_singleton]
        omega
      · exact hle
    · rw [waiting_offer, entered_offer h, ← h.kept]
      split
      · exact (List.append_assoc ..).symm
      · rfl

theorem Lawful.play (h : w.Lawful) (es : List QueueEvent) : (w.play es).Lawful := by
  induction es generalizing w with
  | nil => exact h
  | cons e es ih => exact ih (h.step e)

/-- If the last offer met a free place, its report is the last one that enters. -/
theorem getLastD_entered (h : ∀ o ∈ w.offers.getLast?, o.2 ≠ w.queue.capacity) (d : Report) :
    w.entered.getLastD d = (w.offers.map (·.1)).getLastD d := by
  rcases List.eq_nil_or_concat w.offers with hnil | ⟨os, o, hos⟩
  · rw [entered, hnil]
    rfl
  · rw [List.concat_eq_append] at hos
    rw [hos, List.getLast?_concat] at h
    have ho : o.2 ≠ w.queue.capacity := h o rfl
    rw [entered, hos]
    simp [ho]

theorem capacity_play (w : WatchedQueue) (es : List QueueEvent) :
    (w.play es).queue.capacity = w.queue.capacity := by
  induction es generalizing w with
  | nil => rfl
  | cons e es ih => exact (ih (w.step e)).trans (capacity_step w e)

theorem offers_play (w : WatchedQueue) (es : List QueueEvent) :
    (w.play es).offers.map (·.1) = w.offers.map (·.1) ++ es.filterMap QueueEvent.report? := by
  induction es generalizing w with
  | nil => exact (List.append_nil _).symm
  | cons e es ih =>
    refine (ih (w.step e)).trans ?_
    cases e with
    | take n => rfl
    | offer r => simp [step, QueueEvent.report?]

theorem taken_play_offer (w : WatchedQueue) (rs : List Report) : (w.play (rs.map .offer)).taken = w.taken := by
  induction rs generalizing w with
  | nil => rfl
  | cons r rs ih => exact ih (w.step (.offer r))

/-- What comes out of a queue that was empty, whatever happens at it. -/
theorem out_of_play (capacity : Nat) (es : List QueueEvent) :
    let w := play { queue := .empty capacity } es
    w.taken ++ w.queue.waiting = (w.offers.filter (·.2 ≠ capacity)).map (·.1) ∧
      ((∀ o ∈ w.offers.getLast?, o.2 ≠ capacity) →
        ∀ d, (w.taken ++ w.queue.waiting).getLastD d = (w.offers.map (·.1)).getLastD d) := by
  intro w
  have hcap : w.queue.capacity = capacity := capacity_play _ _
  have hkept : w.taken ++ w.queue.waiting = w.entered := ((Lawful.new capacity).play es).kept
  refine ⟨?_, fun hfree d => ?_⟩
  · rw [hkept, entered, hcap]
  · rw [← hcap] at hfree
    rw [hkept, getLastD_entered hfree]

end WatchedQueue

/-! ## The reports that are offered -/

namespace Reporter

variable {r r' : Reporter}

theorem queue_send (hne : r.report ≠ r.last) : r.send.queue = (r.queue.push? r.report).getD r.queue := by
  rw [send, if_neg hne]
  split
  · rename_i hq; rw [hq]; rfl
  · rename_i hq; rw [hq]; rfl

theorem dropped_send (hne : r.report ≠ r.last) :
    r.send.dropped =
      if r.queue.waiting.length < r.queue.capacity then r.dropped else r.dropped ++ [r.report] := by
  rw [send, if_neg hne]
  unfold ReportQueue.push?
  by_cases hroom : r.queue.waiting.length < r.queue.capacity
  · simp [hroom, dropped, notices, Entry.notice?]
  · simp [hroom, dropped, notices, Entry.notice?, Notice.dropped?]

/-- Each report differs from the one before it in exactly one place, and the last one is that of the
registered keys. -/
structure Streaming (r : Reporter) : Prop where
  synced : r.Synced
  chain : (Report.idle :: r.attempted).IsChain Report.OneChange

namespace Streaming

theorem new (capacity : Nat) : (Reporter.new capacity).Streaming where
  synced := .new capacity
  chain := .singleton _

theorem same (h : r.Streaming) (hs : r.SameOffers r') (hr : r'.report = r.report) : r'.Streaming where
  synced := (h.synced.same hs hr).1
  chain := hs.attempted.symm ▸ h.chain

/-- A change of at most one place is offered at once. -/
theorem send (h : r.Streaming) (hs : r.SameOffers r')
    (hr : r'.report = r.report ∨ r.report.OneChange r'.report) : r'.send.Streaming where
  synced := (h.synced.send hs).1
  chain := by
    rw [attempted_send, hs.attempted, hs.last]
    split
    · exact h.chain
    · rename_i hne
      have hone : r.report.OneChange r'.report := by
        rcases hr with hr | hr
        · exact absurd (hr.trans h.synced.last.symm) hne
        · exact hr
      rw [← List.cons_append]
      refine h.chain.append (.singleton _) ?_
      intro x hx y hy
      -- the report before the new one is the one offered last, or idle if there is none
      have hx : x = r.report := by
        have hlast := h.synced.attempted.trans h.synced.last
        rw [List.getLast?_cons, Option.mem_some_iff, ← List.getLastD_eq_getLast?, hlast] at hx
        exact hx.symm
      rw [List.head?_singleton, Option.mem_some_iff] at hy
      rw [hx, ← hy]
      exact hone

end Streaming

theorem opsKeep_streaming : OpsKeep Streaming where
  register {k r} h := h.send (sameOffers_hold k r) (report_hold k r)
  unregister {k r} h := h.send (sameOffers_letGo k r) (report_letGo k r)
  note {_ r} h hn := h.same (sameOffers_hear hn r) rfl
  activateLayer {n r} h := h.same (sameOffers_putLayer n true r) (by
    simp only [report, show (KeyHost.activateLayer n r).mods = _ from putLayer_mods n true r,
      show (KeyHost.activateLayer n r).slots = _ from putLayer_slots n true r])
  deactivateLayer {n r} h := h.same (sameOffers_putLayer n false r) (by
    simp only [report, show (KeyHost.deactivateLayer n r).mods = _ from putLayer_mods n false r,
      show (KeyHost.deactivateLayer n r).slots = _ from putLayer_slots n false r])
  updateMatrix {e r} h := h.same (sameOffers_updateMatrix e r) (by
    simp only [report, updateMatrix_mods, updateMatrix_slots])
  setLayer {n r} h := h.same (sameOffers_setLayer n r) (by
    simp only [report, (setLayer_fields n r).2.1, (setLayer_fields n r).2.2])

end Reporter

theorem Keyboard.streaming_run (profile : Profile) (capacity : Nat) (ops : List Op) :
    ((Keyboard.new profile capacity).run ops).reporter.Streaming :=
  Reporter.opsKeep_streaming.run (fun h => ⟨⟨h.synced.attempted, h.synced.last⟩, h.chain⟩) (.new capacity) ops

/-! ## The queue of a keyboard -/

namespace WatchedQueue

variable {w : WatchedQueue} {start r r' : Reporter}

/-- The watched queue has seen what the reporter did. -/
structure Matches (w : WatchedQueue) (r : Reporter) : Prop where
  queue : w.queue = r.queue
  offered : w.offers.map (·.1) = r.attempted
  missed : w.missed = r.dropped

theorem Matches.new (capacity : Nat) : Matches { queue := .empty capacity } (.new capacity) := ⟨rfl, rfl, rfl⟩

theorem Matches.same (h : w.Matches r) (hs : r.SameOffers r') : w.Matches r' where
  queue := h.queue.trans hs.queue.symm
  offered := h.offered.trans hs.attempted.symm
  missed := h.missed.trans hs.dropped.symm

/-- A new report is an offer: it enters the queue, or is dropped because the queue is full. -/
theorem Matches.offer (hw : w.Lawful) (h : w.Matches r) (hne : r.report ≠ r.last) :
    (w.step (.offer r.report)).Matches r.send where
  queue := by
    rw [Reporter.queue_send hne, ← h.queue]
    rfl
  offered := by
    rw [Reporter.attempted_send, if_neg hne, ← h.offered]
    exact List.map_append
  missed := by rw [missed_offer hw, Reporter.dropped_send hne, ← h.missed, h.queue]

/-- The watched queue has seen what `start` did, and is given what was offered since. -/
def Follows (w : WatchedQueue) (start r : Reporter) : Prop :=
  ∃ news, r.attempted = start.attempted ++ news ∧ (w.play (news.map .offer)).Matches r

theorem Follows.same (h : w.Follows start r) (hs : r.SameOffers r') : w.Follows start r' := by
  obtain ⟨news, hnews, hm⟩ := h
  exact ⟨news, hs.attempted.trans hnews, hm.same hs⟩

theorem Follows.send (hw : w.Lawful) (h : w.Follows start r) : w.Follows start r.send := by
  obtain ⟨news, hnews, hm⟩ := h
  by_cases he : r.report = r.last
  · have hsend : r.send = r := by rw [Reporter.send, if_pos he]
    rw [hsend]
    exact ⟨news, hnews, hm⟩
  · refine ⟨news ++ [r.report], ?_, ?_⟩
    · rw [Reporter.attempted_send, if_neg he, hnews, List.append_assoc]
    · rw [List.map_append, play_append]
      exact hm.offer (hw.play _) he

theorem opsKeep_follows (hw : w.Lawful) (start : Reporter) : OpsKeep (w.Follows start) where
  register {k r} h := (h.same (Reporter.sameOffers_hold k r)).send hw
  unregister {k r} h := (h.same (Reporter.sameOffers_letGo k r)).send hw
  note {_ r} h hn := h.same (Reporter.sameOffers_hear hn r)
  activateLayer {n r} h := h.same (Reporter.sameOffers_putLayer n true r)
  deactivateLayer {n r} h := h.same (Reporter.sameOffers_putLayer n false r)
  updateMatrix {e r} h := h.same (Reporter.sameOffers_updateMatrix e r)
  setLayer {n r} h := h.same (Reporter.sameOffers_setLayer n r)

end WatchedQueue

namespace Keyboard

/-- What an operation does at the report queue. -/
def events (kb : Keyboard) : Op → List QueueEvent
  | .receive n => [.take n]
  | op => ((kb.apply op).reporter.attempted.drop kb.reporter.attempted.length).map .offer

/-- What a run does at the report queue. -/
def timeline : Keyboard → List Op → List QueueEvent
  | _, [] => []
  | kb, op :: ops => kb.events op ++ (kb.apply op).timeline ops

/-- The reports that an operation hands out. -/
def handedOut (kb : Keyboard) : Op → List Report
  | .receive n => (kb.receive n).1
  | _ => []

/-- The reports that a run hands out. -/
def received : Keyboard → List Op → List Report
  | _, [] => []
  | kb, op :: ops => kb.handedOut op ++ (kb.apply op).received ops

variable {kb : Keyboard} {w : WatchedQueue}

theorem matches_offers (hw : w.Lawful) (h : w.Matches kb.reporter) {op : Op} (hop : ∀ n, op ≠ .receive n) :
    (w.play (((kb.apply op).reporter.attempted.drop kb.reporter.attempted.length).map .offer)).Matches
      (kb.apply op).reporter := by
  have hstart : w.Follows kb.reporter kb.reporter := ⟨[], (List.append_nil _).symm, h⟩
  obtain ⟨news, hnews, hm⟩ := (WatchedQueue.opsKeep_follows hw kb.reporter).apply hop hstart
  rw [hnews, List.drop_left]
  exact hm

/-- The queue of the keyboard and the watched one go through an operation alike. -/
theorem matches_events (hw : w.Lawful) (h : w.Matches kb.reporter) (op : Op) :
    (w.play (kb.events op)).Matches (kb.apply op).reporter ∧
      (w.play (kb.events op)).taken = w.taken ++ kb.handedOut op := by
  cases op with
  | receive n =>
    refine ⟨⟨?_, h.offered, h.missed⟩, ?_⟩
    · show (w.queue.take n).2 = (kb.reporter.queue.take n).2
      rw [h.queue]
    · show w.taken ++ (w.queue.take n).1 = w.taken ++ (kb.reporter.queue.take n).1
      rw [h.queue]
  | key action e =>
    exact ⟨matches_offers hw h nofun, (WatchedQueue.taken_play_offer w _).trans (List.append_nil _).symm⟩
  | setLayer n =>
    exact ⟨matches_offers hw h nofun, (WatchedQueue.taken_play_offer w _).trans (List.append_nil _).symm⟩
  | finishDance =>
    exact ⟨matches_offers hw h nofun, (WatchedQueue.taken_play_offer w _).trans (List.append_nil _).symm⟩

theorem matches_timeline (hw : w.Lawful) (h : w.Matches kb.reporter) (ops : List Op) :
    (w.play (kb.timeline ops)).Matches (kb.run ops).reporter ∧
      (w.play (kb.timeline ops)).taken = w.taken ++ kb.received ops := by
  induction ops generalizing kb w with
  | nil => exact ⟨h, (List.append_nil _).symm⟩
  | cons op ops ih =>
    obtain ⟨hm, ht⟩ := matches_events hw h op
    obtain ⟨hrun, hrest⟩ := ih (hw.play _) hm
    rw [timeline, received, WatchedQueue.play_append]
    exact ⟨hrun, by rw [hrest, ht, List.append_assoc]⟩

/-- **The stream of reports.** In every run, with receives anywhere in between: each report that is offered
differs from the one before it in exactly one place, and the last one is that of the registered keys. The queue
goes through the states of a watched queue that is given the offers and the receives. What was received and
what still waits are, in their order, the offers that did not meet a full queue, and each of the others is told
by one notice. If the last offer was not dropped, the last report that comes out of the queue is that of the
registered keys. The last part says what comes out of the queue wherever takes come among the offers of the run, also
among those of one operation. -/
theorem report_stream (profile : Profile) (capacity : Nat) (ops : List Op) :
    let start := Keyboard.new profile capacity
    let kb := start.run ops
    let w := WatchedQueue.play { queue := .empty capacity } (start.timeline ops)
    (Report.idle :: kb.reporter.attempted).IsChain Report.OneChange ∧
      kb.report = kb.reporter.attempted.getLastD .idle ∧
      w.queue = kb.reporter.queue ∧
      w.offers.map (·.1) = kb.reporter.attempted ∧
      start.received ops ++ kb.reporter.queue.waiting = (w.offers.filter (·.2 ≠ capacity)).map (·.1) ∧
      kb.reporter.dropped = (w.offers.filter (·.2 = capacity)).map (·.1) ∧
      ((∀ o ∈ w.offers.getLast?, o.2 ≠ capacity) →
        (start.received ops ++ kb.drain.1).getLastD .idle = kb.report) ∧
      ∀ es : List QueueEvent, es.filterMap QueueEvent.report? = kb.reporter.attempted →
        let w := WatchedQueue.play { queue := .empty capacity } es
        w.offers.map (·.1) = kb.reporter.attempted ∧
          w.taken ++ w.queue.waiting = (w.offers.filter (·.2 ≠ capacity)).map (·.1) ∧
          ((∀ o ∈ w.offers.getLast?, o.2 ≠ capacity) →
            (w.taken ++ w.queue.waiting).getLastD .idle = kb.report) := by
  intro start kb w
  have hs : kb.reporter.Streaming := streaming_run profile capacity ops
  obtain ⟨hm, htaken⟩ : w.Matches kb.reporter ∧ w.taken = [] ++ start.received ops :=
    matches_timeline (.new capacity) (.new capacity) ops
  have hcap : w.queue.capacity = capacity := WatchedQueue.capacity_play _ _
  have hlast : kb.report = kb.reporter.attempted.getLastD .idle :=
    (hs.synced.attempted.trans hs.synced.last).symm
  have hout : start.received ops ++ kb.reporter.queue.waiting = w.taken ++ w.queue.waiting := by
    rw [htaken, hm.queue]
    rfl
  obtain ⟨hkept, hend⟩ := WatchedQueue.out_of_play capacity (start.timeline ops)
  refine ⟨hs.chain, hlast, hm.queue, hm.offered, hout.trans hkept, ?_, fun hfree => ?_, fun es hes => ?_⟩
  · rw [← hm.missed, WatchedQueue.missed, hcap]
  · calc (start.received ops ++ kb.drain.1).getLastD .idle
        = (w.taken ++ w.queue.waiting).getLastD .idle := congrArg (·.getLastD .idle) hout
      _ = (w.offers.map (·.1)).getLastD .idle := hend hfree _
      _ = kb.report := by rw [hm.offered, hlast]
  · have hoffers : (WatchedQueue.play { queue := .empty capacity } es).offers.map (·.1) = kb.reporter.attempted :=
      (WatchedQueue.offers_play _ es).trans hes
    obtain ⟨hkept, hend⟩ := WatchedQueue.out_of_play capacity es
    refine ⟨hoffers, hkept, fun hfree => ?_⟩
    rw [hend hfree, hoffers, hlast]

/-- Three keys go down before the host takes a report from its queue of two places. -/
def crowded : List Op :=
  [.key (.key ⟨.keyA, .empty⟩) ⟨⟨0, 0⟩, true⟩, .key (.key ⟨.keyB, .empty⟩) ⟨⟨0, 1⟩, true⟩,
    .key (.key ⟨.keyC, .empty⟩) ⟨⟨0, 2⟩, true⟩, .receive 1, .key (.key ⟨.keyA, .empty⟩) ⟨⟨0, 0⟩, false⟩]

/-- A chord of two keys goes down in one operation. -/
def chordDown : List Op := [.key (.key ⟨.keyC, .ctrl⟩) ⟨⟨0, 0⟩, true⟩]

/-- The host takes the first report of `chordDown` before the second one is offered. -/
def betweenOffers : List QueueEvent :=
  [.offer { Report.idle with modifier := 0x01 }, .take 1, .offer ⟨0x01, 0, 0, #v[0x06, 0, 0, 0, 0, 0]⟩]

theorem report_stream_crowded :
    let start := Keyboard.new {} 2
    let offers := (WatchedQueue.play { queue := .empty 2 } (start.timeline crowded)).offers
    let chord := (Keyboard.new {} 1).run chordDown
    let w := WatchedQueue.play { queue := .empty 1 } betweenOffers
    offers.map (·.2) = [0, 1, 2, 1] ∧ (∀ o ∈ offers.getLast?, o.2 ≠ 2) ∧
      (start.received crowded ++ (start.run crowded).drain.1).getLastD .idle = (start.run crowded).report ∧
      betweenOffers.filterMap QueueEvent.report? = chord.reporter.attempted ∧ w.offers.map (·.2) = [0, 0] ∧
      (w.taken ++ w.queue.waiting).getLastD .idle = chord.report := by
  have hfree : ∀ o ∈ (WatchedQueue.play { queue := .empty 2 } ((Keyboard.new {} 2).timeline crowded)).offers.getLast?,
      o.2 ≠ 2 := by decide +kernel
  have hoffers : betweenOffers.filterMap QueueEvent.report? =
      ((Keyboard.new {} 1).run chordDown).reporter.attempted := by decide +kernel
  obtain ⟨_, _, _, _, _, _, hlast, _⟩ := report_stream {} 2 crowded
  obtain ⟨_, _, _, _, _, _, _, hany⟩ := report_stream {} 1 chordDown
  exact ⟨by decide +kernel, hfree, hlast hfree, hoffers, by decide +kernel,
    (hany betweenOffers hoffers).2.2 (by decide +kernel)⟩

end Keyboard

end ShiftRemap
