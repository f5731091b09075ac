import Mathlib.Data.List.Nodup
import ShiftRemap.Proofs.HostMap
import ShiftRemap.Proofs.RecordedCalls
import ShiftRemap.Remapper.Run

/-!
# The dance table

Between two events the table of a remapper is orderly (`Dance.Orderly`): a position dances at most once, at most
one dance is pending, and the key of a finished dance is down. A press makes room for this before anything else:
it resolves the pending dances of all other positions (`settledBut_prepare`), so a dance that it begins is the
only one pending. A release resolves nothing, it only ends dances that were resolved before
(`dance_release`). None of this depends on the host.

The calls of the resolved dances come first, and what follows is what the event does on a remapper without these
dances (`calls_process_press`).
-/

namespace ShiftRemap

namespace Dance

/-- A table of dances as it is between two events. -/
structure Orderly (ds : List Dance) : Prop where
  /-- A position dances at most once. -/
  apart : (ds.map (·.position)).Nodup
  /-- No two dances are pending. -/
  onePending : ∀ d ∈ ds, ∀ d' ∈ ds, d.isFinished = false → d'.isFinished = false → d = d'
  /-- The key of a finished dance is down. -/
  held : ∀ d ∈ ds, d.isFinished = true → d.pressed = true

/-- Nothing is pending at other positions than `p`. -/
def SettledBut (p : Position) (ds : List Dance) : Prop := ∀ d ∈ ds, d.position ≠ p → d.isFinished = true

/-- The dance waits at another position than `p`. -/
def isDue (p : Position) (d : Dance) : Bool := d.position != p && !d.isFinished

/-- What a press at `p` makes of a dance. -/
def interruptedBy? (p : Position) (d : Dance) : Option Dance :=
  if d.isDue p then d.interrupt.resolved? else some d

variable {ds : List Dance} {d d' : Dance} {p : Position}

theorem isDue_iff : d.isDue p = true ↔ d.position ≠ p ∧ d.isFinished = false := by
  simp [isDue]

theorem interruptedBy?_cases (h : d.interruptedBy? p = some d') :
    d'.position = d.position ∧ (d' = d ∧ d.isDue p = false ∨ d'.isFinished = true ∧ d'.pressed = true) := by
  unfold interruptedBy? at h
  split at h
  · rename_i hd
    have hpos : d'.position = d.interrupt.position := position_of_resolved? h
    refine ⟨hpos, .inr ?_⟩
    obtain ⟨hf, hor⟩ := isFinished_of_resolved? h
    refine ⟨hf, hor.resolve_left ?_⟩
    have hpending : d.interrupt.isFinished = false := (isDue_iff.1 hd).2
    simp [hpending]
  · rename_i hd
    cases h
    exact ⟨rfl, .inl ⟨rfl, by simpa using hd⟩⟩

namespace Orderly

theorem nil : Orderly [] where
  apart := List.nodup_nil
  onePending _ hd := absurd hd List.not_mem_nil
  held _ hd := absurd hd List.not_mem_nil

theorem unique (ho : Orderly ds) (hd : d ∈ ds) (hd' : d' ∈ ds) (he : d.position = d'.position) : d = d' :=
  List.inj_on_of_nodup_map ho.apart hd hd' he

theorem filter (ho : Orderly ds) (keep : Dance → Bool) : Orderly (ds.filter keep) where
  apart := ho.apart.sublist (List.filter_sublist.map _)
  onePending d hd d' hd' := ho.onePending d (List.mem_filter.1 hd).1 d' (List.mem_filter.1 hd').1
  held d hd := ho.held d (List.mem_filter.1 hd).1

/-- Dances may be changed or dropped as long as they stay where they are, none of them becomes pending, and the
key of one that is finished is down. -/
theorem filterMap (ho : Orderly ds) {f : Dance → Option Dance}
    (hpos : ∀ {d d'}, f d = some d' → d'.position = d.position)
    (hpending : ∀ {d d'}, d ∈ ds → f d = some d' → d'.isFinished = false → d.isFinished = false)
    (hheld : ∀ {d d'}, d ∈ ds → f d = some d' → d'.isFinished = true → d'.pressed = true) :
    Orderly (ds.filterMap f) where
  apart := by
    rw [List.Nodup, List.pairwise_map]
    refine List.Pairwise.filterMap _ ?_ (List.pairwise_map.1 ho.apart)
    intro a a' hne b hb b' hb'
    rw [hpos hb, hpos hb']
    exact hne
  onePending d hd d' hd' hp hp' := by
    obtain ⟨x, hx, hfx⟩ := List.mem_filterMap.1 hd
    obtain ⟨x', hx', hfx'⟩ := List.mem_filterMap.1 hd'
    have he := ho.onePending x hx x' hx' (hpending hx hfx hp) (hpending hx' hfx' hp')
    rw [he, hfx'] at hfx
    exact (Option.some.inj hfx).symm
  held d hd hf := by
    obtain ⟨x, hx, hfx⟩ := List.mem_filterMap.1 hd
    exact hheld hx hfx hf

/-- The dance of one position may be replaced. -/
theorem replace (ho : Orderly ds) (hd : d ∈ ds) (hpos : d'.position = d.position)
    (hpending : d'.isFinished = false → d.isFinished = false) (hheld : d'.isFinished = true → d'.pressed = true) :
    Orderly (ds.map fun x => if x.position = d.position then d' else x) := by
  rw [← List.filterMap_eq_map]
  refine ho.filterMap ?_ ?_ ?_
  · intro x x' hx
    cases hx
    dsimp only
    split
    · rename_i he; rw [hpos, he]
    · rfl
  · intro x x' hmem hx hp
    cases hx
    dsimp only at hp
    split at hp
    · rename_i he
      rw [ho.unique hmem hd he]
      exact hpending hp
    · exact hp
  · intro x x' hmem hx hf
    cases hx
    dsimp only at hf ⊢
    by_cases he : x.position = d.position
    · rw [if_pos he] at hf ⊢
      exact hheld hf
    · rw [if_neg he] at hf ⊢
      exact ho.held x hmem hf

/-- A dance may begin where none is in progress, once nothing else is pending. -/
theorem begin (ho : Orderly ds) (hs : SettledBut p ds) (hp : ∀ d ∈ ds, d.position ≠ p) (n : UInt8) (c : Chord) :
    Orderly (ds ++ [start p n c]) where
  apart := by
    rw [List.map_append, List.nodup_append]
    refine ⟨ho.apart, List.nodup_singleton _, ?_⟩
    rintro a ha b hb rfl
    obtain ⟨d, hd, rfl⟩ := List.mem_map.1 ha
    exact hp d hd (by simpa [start] using hb)
  onePending d hd d' hd' hf hf' := by
    have hnew : ∀ x ∈ ds ++ [start p n c], x.isFinished = false → x = start p n c := by
      intro x hx hxf
      rcases List.mem_append.1 hx with hx | hx
      · rw [hs x hx (hp x hx)] at hxf
        cases hxf
      · exact List.mem_singleton.1 hx
    rw [hnew d hd hf, hnew d' hd' hf']
  held d hd hf := by
    rcases List.mem_append.1 hd with hd | hd
    · exact ho.held d hd hf
    · rw [List.mem_singleton.1 hd]
      rfl

end Orderly

end Dance

namespace Remapper

open Dance

variable {σ : Type} [KeyHost σ] {profile : Profile} {action : Action} {e : KeyEvent} {p : Position}
variable {r : Remapper} {h : σ}

/-! ## The stages of an event -/

theorem dances_interruptDances (p : Position) (r : Remapper) (h : σ) :
    (r.interruptDances p h).1.dances = r.dances.filterMap (interruptedBy? p) := by
  have hmarked : ∀ d : Dance, (if d.isDue p then d.interrupt else d).isDue p = d.isDue p := by
    intro d
    split <;> rfl
  show (settle (isDue p) (r.dances.map fun d => if d.isDue p then d.interrupt else d) h).1 = _
  rw [settle_fst, List.filterMap_map]
  congr 1
  funext d
  simp only [Function.comp_apply, hmarked, interruptedBy?]
  split <;> rfl

theorem orderly_prepare (ho : Orderly r.dances) (e : KeyEvent) (h : σ) : Orderly (r.prepare e h).1.dances := by
  unfold prepare
  split
  · rw [dances_interruptDances]
    refine ho.filterMap (fun hx => (interruptedBy?_cases hx).1) ?_ ?_
    · intro d d' _ hx hp
      rcases (interruptedBy?_cases hx).2 with ⟨rfl, _⟩ | ⟨hf, _⟩
      · exact hp
      · rw [hf] at hp; cases hp
    · intro d d' hd hx hf
      rcases (interruptedBy?_cases hx).2 with ⟨rfl, _⟩ | ⟨_, hpr⟩
      · exact ho.held d' hd hf
      · exact hpr
  · exact ho

/-- A press resolves the pending dances of the other positions. -/
theorem settledBut_prepare (p : Position) (r : Remapper) (h : σ) :
    SettledBut p (r.prepare (.press p) h).1.dances := by
  intro d' hd' hne
  rw [show (r.prepare (.press p) h).1 = (r.interruptDances p h).1 from rfl, dances_interruptDances] at hd'
  obtain ⟨d, hd, hx⟩ := List.mem_filterMap.1 hd'
  rcases (interruptedBy?_cases hx).2 with ⟨rfl, hdue⟩ | ⟨hf, _⟩
  · simpa [isDue, hne] using hdue
  · exact hf

/-- The filter does not look at the dances. -/
theorem filter_withDances (profile : Profile) (action : Action) (e : KeyEvent) (r : Remapper) (ds : List Dance)
    (h : σ) :
    { r with dances := ds }.filter profile action e h =
      let f := r.filter profile action e h
      (f.1, { f.2.1 with dances := ds }, f.2.2) := by
  unfold filter
  dsimp only
  cases (if e.pressed then none else r.hijacked.get? e.position) with
  | some k => rfl
  | none =>
    dsimp only
    split
    · split <;> rfl
    · rfl

theorem dances_filter (profile : Profile) (action : Action) (e : KeyEvent) (r : Remapper) (h : σ) :
    (r.filter profile action e h).2.1.dances = r.dances := by
  have hself := filter_withDances profile action e r r.dances h
  rw [show { r with dances := r.dances } = r from rfl] at hself
  rw [hself]

/-! ## Layer taps -/

section LayerTap

variable {d : Dance} {n : UInt8} {c : Chord}

theorem dance_of_none_press (hf : r.dances.find? (·.position == p) = none) :
    r.dance n c (.press p) h =
      if r.dances.length < danceCapacity then ({ r with dances := r.dances ++ [start p n c] }, h)
      else (r, KeyHost.note (.tooManyDances p) h) := by
  unfold dance
  rw [show r.dances.find? (·.position == (KeyEvent.press p).position) = none from hf]
  rfl

theorem dance_of_some_press (hf : r.dances.find? (·.position == p) = some d) :
    r.dance n c (.press p) h =
      ({ r with dances := r.dances.map fun x => if x.position = p then (if d.isFinished then d else d.tap) else x },
        h) := by
  unfold dance
  rw [show r.dances.find? (·.position == (KeyEvent.press p).position) = some d from hf]
  rfl

theorem dance_of_none_release (hf : r.dances.find? (·.position == p) = none) :
    r.dance n c (.release p) h = (r, h) := by
  unfold dance
  rw [show r.dances.find? (·.position == (KeyEvent.release p).position) = none from hf]
  rfl

/-- The release of a resolved dance ends it. -/
theorem dance_of_finished_release (hf : r.dances.find? (·.position == p) = some d) (hfin : d.isFinished = true) :
    r.dance n c (.release p) h = ({ r with dances := r.dances.filter (·.position != p) }, d.undo h) := by
  unfold dance
  rw [show r.dances.find? (·.position == (KeyEvent.release p).position) = some d from hf]
  simp only [KeyEvent.release, release_of_finished hfin, if_true]
  rfl

/-- The release of a pending dance lets it wait with its key up. -/
theorem dance_of_pending_release (hf : r.dances.find? (·.position == p) = some d) (hfin : d.isFinished = false) :
    r.dance n c (.release p) h =
      ({ r with dances := r.dances.map fun x => if x.position = p then { d with pressed := false } else x }, h) := by
  unfold dance
  rw [show r.dances.find? (·.position == (KeyEvent.release p).position) = some d from hf]
  simp only [KeyEvent.release, release_of_pending hfin, Bool.false_eq_true, if_false]

theorem mem_of_find? (hf : r.dances.find? (·.position == p) = some d) : d ∈ r.dances ∧ d.position = p :=
  ⟨List.mem_of_find?_eq_some hf, by simpa using List.find?_some hf⟩

/-- The press of a layer tap begins a dance or counts as a tap. -/
theorem dance_press (ho : Orderly r.dances) (hs : SettledBut p r.dances) (n : UInt8) (c : Chord) (h : σ) :
    let ds := (r.dance n c (.press p) h).1.dances
    Orderly ds ∧ SettledBut p ds := by
  cases hf : r.dances.find? (·.position == p) with
  | none =>
    have hp : ∀ d ∈ r.dances, d.position ≠ p := by simpa using hf
    rw [dance_of_none_press hf]
    split
    · refine ⟨ho.begin hs hp n c, fun d hd hne => ?_⟩
      rcases List.mem_append.1 hd with hd | hd
      · exact hs d hd hne
      · rw [List.mem_singleton.1 hd] at hne
        exact absurd rfl hne
    · exact ⟨ho, hs⟩
  | some d =>
    obtain ⟨hd, rfl⟩ := mem_of_find? hf
    rw [dance_of_some_press hf]
    refine ⟨?_, fun x hx hne => ?_⟩
    · cases hfin : d.isFinished with
      | true => exact ho.replace hd rfl id (ho.held d hd)
      | false => exact ho.replace hd rfl (fun _ => hfin) fun _ => rfl
    · obtain ⟨y, hy, rfl⟩ := List.mem_map.1 hx
      by_cases he : y.position = d.position
      · rw [if_pos he] at hne
        split at hne <;> exact absurd rfl hne
      · rw [if_neg he]
        exact hs y hy he

/-- The release of a layer tap resolves no dance: it ends one that was resolved before, or lets a pending one
wait with its key up. -/
theorem dance_release (ho : Orderly r.dances) (n : UInt8) (c : Chord) (p : Position) (h : σ) :
    let ds := (r.dance n c (.release p) h).1.dances
    Orderly ds ∧ (∀ d ∈ ds, d.isFinished = true → d ∈ r.dances) ∧
      ∀ d ∈ r.dances, d.isFinished = false → ∃ b, { d with pressed := b } ∈ ds := by
  cases hf : r.dances.find? (·.position == p) with
  | none =>
    rw [dance_of_none_release hf]
    exact ⟨ho, fun d hd _ => hd, fun d hd _ => ⟨d.pressed, hd⟩⟩
  | some d =>
    obtain ⟨hd, rfl⟩ := mem_of_find? hf
    cases hfin : d.isFinished with
    | true =>
      rw [dance_of_finished_release hf hfin]
      refine ⟨ho.filter _, fun x hx _ => (List.mem_filter.1 hx).1, fun x hx hpending => ?_⟩
      refine ⟨x.pressed, List.mem_filter.2 ⟨hx, ?_⟩⟩
      rw [bne_iff_ne]
      intro he
      rw [ho.unique hx hd he, hfin] at hpending
      cases hpending
    | false =>
      have hpending : ¬ d.isFinished = true := Bool.eq_false_iff.1 hfin
      rw [dance_of_pending_release hf hfin]
      refine ⟨ho.replace hd rfl (fun _ => hfin) fun hf => absurd hf hpending, ?_, ?_⟩
      · intro x hx hxf
        obtain ⟨y, hy, rfl⟩ := List.mem_map.1 hx
        by_cases he : y.position = d.position
        · rw [if_pos he] at hxf
          exact absurd hxf hpending
        · rw [if_neg he]
          exact hy
      · intro x hx _
        by_cases he : x.position = d.position
        · obtain rfl := ho.unique hx hd he
          exact ⟨false, List.mem_map.2 ⟨x, hx, if_pos rfl⟩⟩
        · exact ⟨x.pressed, List.mem_map.2 ⟨x, hx, if_neg he⟩⟩

end LayerTap

/-! ## Events -/

/-- After the first stage only a layer tap changes the table. -/
theorem dances_process (profile : Profile) (action : Action) (e : KeyEvent) (r : Remapper) (h : σ) :
    let ds := (r.process profile action e h).remapper.dances
    ds = (r.prepare e h).1.dances ∨
      ∃ (n : UInt8) (c : Chord) (r' : Remapper) (h' : σ),
        r'.dances = (r.prepare e h).1.dances ∧ ds = (r'.dance n c e h').1.dances := by
  have hfilter : (r.filtered profile action e h).2.1.dances = (r.prepare e h).1.dances := dances_filter ..
  rw [process_eq]
  dsimp only
  split
  · exact .inl hfilter
  · unfold dispatch
    split
    · refine .inl ?_
      split <;> exact hfilter
    · exact .inr ⟨_, _, _, _, hfilter, rfl⟩
    · exact .inl hfilter
    · exact .inl hfilter

theorem process_press (ho : Orderly r.dances) (profile : Profile) (action : Action) (p : Position) (h : σ) :
    let ds := (r.process profile action (.press p) h).remapper.dances
    Orderly ds ∧ SettledBut p ds := by
  have ho := orderly_prepare ho (.press p) h
  have hs := settledBut_prepare p r h
  rcases dances_process profile action (.press p) r h with hds | ⟨n, c, r', h', hr', hds⟩
  · simp only [hds]
    exact ⟨ho, hs⟩
  · simp only [hds]
    rw [← hr'] at ho hs
    exact dance_press ho hs n c h'

theorem process_release (ho : Orderly r.dances) (profile : Profile) (action : Action) (p : Position) (h : σ) :
    let ds := (r.process profile action (.release p) h).remapper.dances
    Orderly ds ∧ (∀ d ∈ ds, d.isFinished = true → d ∈ r.dances) ∧
      ∀ d ∈ r.dances, d.isFinished = false → ∃ b, { d with pressed := b } ∈ ds := by
  rcases dances_process profile action (.release p) r h with hds | ⟨n, c, r', h', hr', hds⟩
  · simp only [hds]
    exact ⟨ho, fun d hd _ => hd, fun d hd _ => ⟨d.pressed, hd⟩⟩
  · have hr' : r'.dances = r.dances := hr'
    simp only [hds]
    rw [← hr'] at ho ⊢
    exact dance_release ho n c p h'

theorem orderly_process (ho : Orderly r.dances) (profile : Profile) (action : Action) (e : KeyEvent) (h : σ) :
    Orderly (r.process profile action e h).remapper.dances := by
  obtain ⟨p, _ | _⟩ := e
  · exact (process_release ho profile action p h).1
  · exact (process_press ho profile action p h).1

/-! ## The end of a tapping term -/

/-- The end of a tapping term leaves the resolved dances, and drops the pending one if its key is up. -/
theorem dances_finishDance (r : Remapper) (h : σ) : (r.finishDance h).1.dances = r.dances.filterMap resolved? := by
  show (settle (fun d => !d.isFinished) r.dances h).1 = _
  rw [settle_fst]
  congr 1
  funext d
  cases hf : d.isFinished with
  | true => rw [resolved?_of_isFinished hf]; rfl
  | false => rfl

theorem isFinished_finishDance {d : Dance} (hd : d ∈ (r.finishDance h).1.dances) : d.isFinished = true := by
  rw [dances_finishDance] at hd
  obtain ⟨_, _, hx⟩ := List.mem_filterMap.1 hd
  exact (isFinished_of_resolved? hx).1

theorem orderly_finishDance (ho : Orderly r.dances) (h : σ) : Orderly (r.finishDance h).1.dances := by
  rw [dances_finishDance]
  refine ho.filterMap position_of_resolved? ?_ ?_
  · intro d d' _ hx hp
    rw [(isFinished_of_resolved? hx).1] at hp
    cases hp
  · intro d d' hd hx _
    rw [pressed_of_resolved? hx]
    rcases (isFinished_of_resolved? hx).2 with hf | hp
    · exact ho.held d hd hf
    · rw [← pressed_of_resolved? hx]
      exact hp

/-- The table of a remapper is orderly after every run. -/
theorem orderly_run (profile : Profile) (host : σ) (ops : List (Op σ)) :
    Orderly (run profile ({}, host) ops).1.dances :=
  run_keeps (I := fun r => Orderly r.dances) (fun action e h ho => orderly_process ho profile action e h)
    (fun h ho => orderly_finishDance ho h) Orderly.nil ops

/-! ## The calls of a press -/

theorem settle_of_not_due {due : Dance → Bool} {ds : List Dance} (hds : ∀ d ∈ ds, due d = false) (h : σ) :
    settle due ds h = (ds, h) := by
  induction ds with
  | nil => rfl
  | cons d ds ih =>
    have hrest := ih fun d' hd' => hds d' (List.mem_cons_of_mem _ hd')
    unfold settle
    rw [hds d (List.mem_cons_self ..), if_neg Bool.false_ne_true]
    simp only [hrest]

/-- Where nothing else is pending, a press resolves nothing. -/
theorem prepare_of_settledBut (hs : SettledBut p r.dances) (h : σ) : r.prepare (.press p) h = (r, h) := by
  have hdue : ∀ d ∈ r.dances, d.isDue p = false := by
    intro d hd
    rw [Bool.eq_false_iff, Ne, isDue_iff]
    rintro ⟨hne, hf⟩
    exact absurd (hf.symm.trans (hs d hd hne)) Bool.false_ne_true
  have hmarked : (r.dances.map fun d => if d.isDue p then d.interrupt else d) = r.dances := by
    conv_rhs => rw [← List.map_id r.dances]
    refine List.map_congr_left fun d hd => ?_
    rw [hdue d hd]
    rfl
  show (({ r with dances := (settle (isDue p) (r.dances.map fun d => if d.isDue p then d.interrupt else d) h).1 } :
    Remapper), (settle (isDue p) (r.dances.map fun d => if d.isDue p then d.interrupt else d) h).2) = (r, h)
  rw [hmarked, settle_of_not_due hdue]

/-- The calls that a press at `p` makes on a remapper with no other dance than that of `p`. -/
def ownCalls (profile : Profile) (action : Action) (p : Position) (r : Remapper) (h : σ) : List HostCall :=
  let alone := { r with dances := r.dances.filter (·.position == p) }
  (alone.process profile action (.press p) (Recorder.on h)).host.calls.toList

/-- The press of a layer tap makes no call. -/
theorem calls_dance_press (n : UInt8) (c : Chord) (p : Position) (r : Remapper) (h : Recorder σ) :
    (r.dance n c (.press p) h).2.calls = h.calls := by
  cases hf : r.dances.find? (·.position == p) with
  | none =>
    rw [dance_of_none_press hf]
    split <;> rfl
  | some d => rw [dance_of_some_press hf]

/-- What a press calls does not depend on dances that are not pending. -/
theorem calls_process_of_settledBut {ds ds' : List Dance} (hs : SettledBut p ds) (hs' : SettledBut p ds')
    (profile : Profile) (action : Action) (r : Remapper) (h : Recorder σ) :
    ({ r with dances := ds }.process profile action (.press p) h).host.calls =
      ({ r with dances := ds' }.process profile action (.press p) h).host.calls := by
  rw [process_eq, process_eq, filtered, filtered, prepare_of_settledBut (r := { r with dances := ds }) hs,
    prepare_of_settledBut (r := { r with dances := ds' }) hs']
  simp only [filter_withDances]
  split
  · rfl
  · cases action with
    | layerTap n c => simp only [dispatch, calls_dance_press]
    | shortcut s => rfl
    | none => rfl
    | key c => rfl

theorem calls_interruptDances (p : Position) (r : Remapper) (h : Recorder σ) :
    (r.interruptDances p h).2.calls.toList =
      h.calls.toList ++ (r.dances.filter (isDue p)).flatMap fun d => d.interrupt.finishCalls := by
  let mark (d : Dance) : Dance := if d.isDue p then d.interrupt else d
  have hdue : isDue p ∘ mark = isDue p := by
    funext d
    show (mark d).isDue p = d.isDue p
    dsimp only [mark]
    split <;> rfl
  have hmark : ∀ d ∈ r.dances.filter (isDue p), mark d = d.interrupt :=
    fun d hd => if_pos (List.mem_filter.1 hd).2
  show (settle (isDue p) (r.dances.map mark) h).2.calls.toList = _
  rw [calls_settle, List.filter_map, hdue, List.map_congr_left hmark, List.flatMap_map]

/-- A press goes on as if the dances of the other positions had been resolved before it. -/
theorem process_interrupted (profile : Profile) (action : Action) (p : Position) (r : Remapper) (h : σ) :
    r.process profile action (.press p) h =
      (r.interruptDances p h).1.process profile action (.press p) (r.interruptDances p h).2 := by
  have hprep : r.prepare (.press p) h = r.interruptDances p h := rfl
  have hs : SettledBut p (r.interruptDances p h).1.dances := settledBut_prepare p r h
  rw [process_eq, process_eq, filtered, filtered, prepare_of_settledBut hs, hprep]

/-- A press calls first for the dances that it resolves, then for its own action. -/
theorem calls_process_press (profile : Profile) (action : Action) (p : Position) (r : Remapper) (h : σ) :
    (r.process profile action (.press p) (Recorder.on h)).host.calls.toList =
      (r.dances.filter (isDue p)).flatMap (fun d => d.interrupt.finishCalls) ++
        r.ownCalls profile action p (r.interruptDances p h).2 := by
  have hdances := calls_interruptDances p r (Recorder.on h)
  have hhost : (r.interruptDances p h).2 = (r.interruptDances p (Recorder.on h)).2.host :=
    congrArg Prod.snd (Recorder.hostMap_host.prepare (.press p) r (Recorder.on h))
  have hs : SettledBut p (r.interruptDances p (Recorder.on h)).1.dances := settledBut_prepare p r (Recorder.on h)
  have halone : SettledBut p (r.dances.filter (·.position == p)) :=
    fun d hd hne => absurd (by simpa using (List.mem_filter.1 hd).2) hne
  rw [process_interrupted, hhost, ownCalls]
  -- from here on the table and the host are those that the resolved dances left
  obtain ⟨past, hpast⟩ : ∃ past, (r.interruptDances p (Recorder.on h)).2 = past := ⟨_, rfl⟩
  rw [hpast] at hdances ⊢
  have hown := calls_process_of_settledBut hs halone profile action r (Recorder.on past.host)
  have hafter := (Recorder.hostMap_after past).process_map profile action (.press p)
    (r.interruptDances p (Recorder.on h)).1 (Recorder.on past.host)
  rw [Recorder.after_on] at hafter
  rw [hafter, ← hown]
  show (past.calls ++ _).toList = _
  rw [Array.toList_append, hdances]
  rfl

/-! ## Every run -/

/-- **The dance table.** After every run on any host the table is orderly: a position dances at most once, at most
one dance is pending, and the key of a resolved one is down. A press at `p` leaves nothing pending at another
position; on the host with a recorder on it, which goes along with the host itself, it makes first the calls of
the dances that it resolves, and then those that it would make with no other dance than that of `p`. A release
resolves no dance: those that are resolved after it were so before, and the pending one goes on. The end of a
tapping term leaves nothing pending, and a second one right after it changes nothing and makes no call. -/
theorem orderly_dances (profile : Profile) (host : σ) (ops : List (Op σ)) :
    let r := (run profile ({}, host) ops).1
    let h := (run profile ({}, host) ops).2
    Orderly r.dances ∧
      (∀ action p,
        let step := r.process profile action (.press p) h
        let recorded := r.process profile action (.press p) (Recorder.on h)
        SettledBut p step.remapper.dances ∧ recorded.remapper = step.remapper ∧ recorded.host.host = step.host ∧
          recorded.host.calls.toList =
            (r.dances.filter (isDue p)).flatMap (fun d => d.interrupt.finishCalls) ++
              r.ownCalls profile action p (r.interruptDances p h).2) ∧
      (∀ action p,
        let ds := (r.process profile action (.release p) h).remapper.dances
        (∀ d ∈ ds, d.isFinished = true → d ∈ r.dances) ∧
          ∀ d ∈ r.dances, d.isFinished = false → ∃ b, { d with pressed := b } ∈ ds) ∧
      (let ended := r.finishDance h
       ended.1.dancePending = false ∧ ended.1.finishDance ended.2 = ended ∧
        (ended.1.finishDance (Recorder.on ended.2)).2.calls = #[]) := by
  intro r h
  have ho : Orderly r.dances := orderly_run profile host ops
  refine ⟨ho, fun action p => ⟨(process_press ho profile action p h).2, ?_⟩,
    fun action p => (process_release ho profile action p h).2, ?_⟩
  · have hrecorded := Recorder.hostMap_host.process_map profile action (.press p) r (Recorder.on h)
    exact ⟨(congrArg Step.remapper hrecorded).symm, (congrArg Step.host hrecorded).symm,
      calls_process_press profile action p r h⟩
  · intro ended
    have hended : ∀ d ∈ ended.1.dances, (!d.isFinished) = false := by
      intro d hd
      rw [isFinished_finishDance hd]
      rfl
    refine ⟨?_, ?_, ?_⟩
    · rw [dancePending, List.any_eq_false]
      intro d hd
      rw [hended d hd]
      exact Bool.false_ne_true
    · simp only [finishDance, settle_of_not_due hended]
    · simp only [finishDance, settle_of_not_due hended]
      rfl

/-- A layer tap that was pressed and released, and whose dance waits. -/
def tapped : List (Op BenchHost) :=
  [.event (.layerTap 1 ⟨.keyZ, .ctrl⟩) (.press ⟨0, 0⟩), .event (.layerTap 1 ⟨.keyZ, .ctrl⟩) (.release ⟨0, 0⟩)]

theorem orderly_dances_tapped :
    let s := run {} ({}, ({ keysDown := 1 } : BenchHost)) tapped
    let recorded := s.1.process {} (.shortcut .findNext) (.press ⟨0, 1⟩) (Recorder.on s.2)
    (∃ d ∈ s.1.dances, d.isFinished = false ∧ d.position ≠ ⟨0, 1⟩) ∧
      SettledBut ⟨0, 1⟩ recorded.remapper.dances ∧
      recorded.host.calls.toList =
        [.register .leftCtrl, .register .keyZ, .unregister .keyZ, .unregister .leftCtrl] ++
          [.register .f3, .unregister .f3] := by
  obtain ⟨_, hpress, _⟩ := orderly_dances {} ({ keysDown := 1 } : BenchHost) tapped
  obtain ⟨hsettled, hremapper, _, hcalls⟩ := hpress (.shortcut .findNext) ⟨0, 1⟩
  rw [← hremapper] at hsettled
  exact ⟨by decide +kernel, hsettled, hcalls.trans (by decide +kernel)⟩

end Remapper

end ShiftRemap
