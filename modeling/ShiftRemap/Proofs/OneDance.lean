import ShiftRemap.Proofs.DanceTable
import ShiftRemap.Proofs.HijackRecord

/-!
# The dance of one position

What one operation does to the dance of a position `p` (`Dance.at?`), and which of its calls are made for that
dance. Calls are told apart by leaving the dance out: an operation that makes the calls that it makes without the
dance (`Remapper.without`) has nothing to do with it. That is so of every operation but the one that resolves the
dance, which makes the calls of the outcome and then goes on without it (`opCalls_press_of_due`,
`opCalls_finishDance_of_pending`), and the release that ends it, which goes on without it and then makes the
calls that undo the outcome (`opCalls_release_of_finished`).
-/

namespace ShiftRemap

/-! ## Finding a dance -/

namespace Dance

/-- The dance of a position. -/
def at? (p : Position) (ds : List Dance) : Option Dance := ds.find? (·.position == p)

variable {ds : List Dance} {d d' : Dance} {p q : Position}

theorem mem_of_at? (h : at? p ds = some d) : d ∈ ds ∧ d.position = p :=
  ⟨List.mem_of_find?_eq_some h, by simpa using List.find?_some h⟩

theorem at?_eq_none_iff : at? p ds = none ↔ ∀ d ∈ ds, d.position ≠ p := by simp [at?]

theorem at?_of_mem (ho : Orderly ds) (hd : d ∈ ds) : at? d.position ds = some d := by
  cases hf : at? d.position ds with
  | none => exact absurd rfl (at?_eq_none_iff.1 hf d hd)
  | some x =>
    obtain ⟨hx, hpos⟩ := mem_of_at? hf
    rw [ho.unique hx hd hpos]

/-- Dances may be changed or dropped where they are. -/
theorem at?_filterMap {f : Dance → Option Dance} (hf : ∀ {d d'}, f d = some d' → d'.position = d.position)
    (hn : (ds.map (·.position)).Nodup) (p : Position) : at? p (ds.filterMap f) = (at? p ds).bind f := by
  induction ds with
  | nil => rfl
  | cons d ds ih =>
    rw [List.map_cons, List.nodup_cons] at hn
    have hrest : at? p (ds.filterMap f) = (at? p ds).bind f := ih hn.2
    by_cases hp : d.position = p
    · -- no other dance is there
      have hnone : at? p ds = none := by
        rw [at?_eq_none_iff]
        rintro x hx rfl
        exact hn.1 (List.mem_map.2 ⟨x, hx, hp.symm⟩)
      rw [hnone] at hrest
      have hhead : at? p (d :: ds) = some d := by simp [at?, hp]
      rw [hhead, Option.bind_some]
      cases hd : f d with
      | none => rw [List.filterMap_cons_none hd, hrest, Option.bind_none]
      | some d' =>
        have hp' : d'.position = p := (hf hd).trans hp
        simp [List.filterMap_cons_some hd, at?, hp']
    · have hhead : at? p (d :: ds) = at? p ds := by simp [at?, hp]
      rw [hhead, ← hrest]
      cases hd : f d with
      | none => rw [List.filterMap_cons_none hd]
      | some d' =>
        have hp' : d'.position ≠ p := (hf hd).symm ▸ hp
        simp [List.filterMap_cons_some hd, at?, hp']

theorem at?_filter : at? p (ds.filter (·.position != q)) = if p = q then none else at? p ds := by
  unfold at?
  rw [List.find?_filter]
  split
  · rename_i h
    subst h
    simp
  · rename_i h
    congr 1
    funext x
    grind

/-- The dance of one position is exchanged. -/
theorem at?_replace (hd : d.position = q) :
    at? p (ds.map fun x => if x.position = q then d else x) =
      if p = q then (at? p ds).map fun _ => d else at? p ds := by
  have hpos : ((·.position == p) ∘ fun x : Dance => if x.position = q then d else x) = (·.position == p) := by
    funext x
    dsimp only [Function.comp_apply]
    split
    · rename_i h
      rw [hd, h]
    · rfl
  unfold at?
  rw [List.find?_map, hpos]
  split
  · rename_i h
    refine Option.map_congr fun x hx => if_pos ?_
    rw [← h]
    simpa using List.find?_some hx
  · rename_i h
    refine (Option.map_congr fun x hx => if_neg ?_).trans Option.map_id'
    have hx : x.position = p := by simpa using List.find?_some hx
    rw [hx]
    exact h

/-- Of the dances that are not finished there is one at most. -/
theorem filter_of_pending {keep : Dance → Bool} (ho : Orderly ds) (hd : d ∈ ds) (hf : d.isFinished = false)
    (hkeep : keep d = true) (hpending : ∀ x ∈ ds, keep x = true → x.isFinished = false) : ds.filter keep = [d] := by
  have heq : ∀ x ∈ ds, keep x = (x == d) := by
    intro x hx
    rw [Bool.eq_iff_iff, beq_iff_eq]
    constructor
    · exact fun hk => ho.onePending x hx d hd (hpending x hx hk) hf
    · rintro rfl
      exact hkeep
  rw [List.filter_congr heq, List.filter_beq, List.count_eq_one_of_mem ho.apart.of_map hd]
  rfl

end Dance

/-! ## What an operation does to a dance -/

namespace Remapper

open Dance

variable {σ : Type} [KeyHost σ] {profile : Profile} {action : Action} {e : KeyEvent} {p q : Position}
variable {r : Remapper} {h : σ} {d : Dance} {n : UInt8} {c : Chord}

/-! ### The table -/

theorem at?_interruptDances (ho : Orderly r.dances) (p q : Position) (h : σ) :
    at? p (r.interruptDances q h).1.dances = (at? p r.dances).bind (interruptedBy? q) := by
  rw [dances_interruptDances]
  exact at?_filterMap (fun hx => (interruptedBy?_cases hx).1) ho.apart p

theorem at?_finishDance (ho : Orderly r.dances) (p : Position) (h : σ) :
    at? p (r.finishDance h).1.dances = (at? p r.dances).bind resolved? := by
  rw [dances_finishDance]
  exact at?_filterMap position_of_resolved? ho.apart p

/-- A press resolves nothing at its own position. -/
theorem at?_prepare_self (ho : Orderly r.dances) (e : KeyEvent) (h : σ) :
    at? e.position (r.prepare e h).1.dances = at? e.position r.dances := by
  unfold prepare
  split
  · rw [at?_interruptDances ho]
    cases hd : at? e.position r.dances with
    | none => rfl
    | some d =>
      have hpos := (mem_of_at? hd).2
      simp [interruptedBy?, isDue, hpos]
  · rfl

/-- A layer tap changes the dance of its own position. -/
theorem at?_dance_of_ne (hne : e.position ≠ p) (n : UInt8) (c : Chord) (r : Remapper) (h : σ) :
    at? p (r.dance n c e h).1.dances = at? p r.dances := by
  obtain ⟨q, b⟩ := e
  have hpq : p ≠ q := Ne.symm hne
  cases hf : at? q r.dances with
  | none =>
    cases b with
    | true =>
      rw [show (⟨q, true⟩ : KeyEvent) = .press q from rfl, dance_of_none_press hf]
      split
      · have hnew : at? p [start q n c] = none := by simp [at?, start, Ne.symm hpq]
        show at? p (r.dances ++ [start q n c]) = at? p r.dances
        unfold at? at hnew ⊢
        rw [List.find?_append, hnew, Option.or_none]
      · rfl
    | false => rw [show (⟨q, false⟩ : KeyEvent) = .release q from rfl, dance_of_none_release hf]
  | some d =>
    have hpos := (mem_of_at? hf).2
    cases b with
    | true =>
      have htap : (if d.isFinished then d else d.tap).position = q := by
        split <;> exact hpos
      rw [show (⟨q, true⟩ : KeyEvent) = .press q from rfl, dance_of_some_press hf]
      dsimp only
      rw [at?_replace htap, if_neg hpq]
    | false =>
      rw [show (⟨q, false⟩ : KeyEvent) = .release q from rfl]
      cases hfin : d.isFinished with
      | true =>
        rw [dance_of_finished_release hf hfin]
        dsimp only
        rw [at?_filter, if_neg hpq]
      | false =>
        rw [dance_of_pending_release hf hfin]
        dsimp only
        rw [at?_replace (d := { d with pressed := false }) hpos, if_neg hpq]

theorem at?_process_of_ne (hne : e.position ≠ p) (profile : Profile) (action : Action) (r : Remapper) (h : σ) :
    at? p (r.process profile action e h).remapper.dances = at? p (r.prepare e h).1.dances := by
  rcases dances_process profile action e r h with hds | ⟨n, c, r', h', hr', hds⟩
  · exact congrArg (at? p) hds
  · rw [hds, at?_dance_of_ne hne, hr']

/-- What the dispatch does with the dances, once the filter has left the event. -/
theorem dances_process_layerTap (hleft : (r.filtered profile (.layerTap n c) e h).1 = false) :
    ∃ (r' : Remapper) (h' : σ), r'.dances = (r.prepare e h).1.dances ∧
      (r.process profile (.layerTap n c) e h).remapper.dances = (r'.dance n c e h').1.dances := by
  have hfilter : (r.filtered profile (.layerTap n c) e h).2.1.dances = (r.prepare e h).1.dances := dances_filter ..
  refine ⟨_, (r.filtered profile (.layerTap n c) e h).2.2, hfilter, ?_⟩
  rw [process_eq]
  dsimp only
  rw [hleft, if_neg Bool.false_ne_true]
  rfl

/-- An action that is no layer tap changes no dance but those that its press interrupts. -/
theorem dances_process_of_not_layerTap (hact : ∀ n c, action ≠ .layerTap n c) (e : KeyEvent) (r : Remapper) (h : σ) :
    (r.process profile action e h).remapper.dances = (r.prepare e h).1.dances := by
  have hfilter : (r.filtered profile action e h).2.1.dances = (r.prepare e h).1.dances := dances_filter ..
  rw [process_eq]
  dsimp only
  split
  · exact hfilter
  · unfold dispatch
    split
    · split <;> exact hfilter
    · exact absurd rfl (hact _ _)
    · exact hfilter
    · exact hfilter

/-- No pair is triggered by the press of a layer tap. -/
theorem filtered_layerTap_press (ht : profile.pairs.get? .no = none) (n : UInt8) (c : Chord) (p : Position)
    (r : Remapper) (h : σ) : (r.filtered profile (.layerTap n c) (.press p) h).1 = false := by
  have htrig : triggered? profile (.layerTap n c) (r.prepare (.press p) h).2 = none := by
    unfold triggered?
    split
    · exact ht
    · rfl
  rw [filtered, filter_press_left rfl htrig]

/-- The release of a layer tap is left where nothing is recorded. -/
theorem filtered_layerTap_release (hk : r.hijacked.get? p = none) (n : UInt8) (c : Chord) (h : σ) :
    (r.filtered profile (.layerTap n c) (.release p) h).1 = false := by
  rw [filtered_release, filter_release_left rfl hk]

theorem at?_process_tap (ht : profile.pairs.get? .no = none) (ho : Orderly r.dances) (hd : at? p r.dances = some d)
    (n : UInt8) (c : Chord) (h : σ) :
    at? p (r.process profile (.layerTap n c) (.press p) h).remapper.dances =
      some (if d.isFinished then d else d.tap) := by
  obtain ⟨r', h', hr', hds⟩ := dances_process_layerTap (filtered_layerTap_press ht n c p r h)
  have hd' : at? p r'.dances = some d := by rw [hr', ← hd]; exact at?_prepare_self ho (.press p) h
  have htap : (if d.isFinished then d else d.tap).position = p := by
    have hpos := (mem_of_at? hd).2
    split <;> exact hpos
  rw [hds, dance_of_some_press hd']
  dsimp only
  rw [at?_replace htap, if_pos rfl, hd', Option.map_some]

theorem at?_process_letGo (hk : r.hijacked.get? p = none) (hd : at? p r.dances = some d) (n : UInt8) (c : Chord)
    (h : σ) :
    at? p (r.process profile (.layerTap n c) (.release p) h).remapper.dances =
      if d.isFinished then none else some { d with pressed := false } := by
  have hleft : (r.filtered profile (.layerTap n c) (.release p) h).1 = false := filtered_layerTap_release hk n c h
  obtain ⟨r', h', hr', hds⟩ := dances_process_layerTap hleft
  have hd' : at? p r'.dances = some d := by rw [hr']; exact hd
  rw [hds]
  cases hfin : d.isFinished with
  | true =>
    rw [dance_of_finished_release hd' hfin]
    dsimp only
    rw [at?_filter, if_pos rfl, if_pos rfl]
  | false =>
    rw [dance_of_pending_release hd' hfin]
    dsimp only
    rw [at?_replace (d := { d with pressed := false }) (mem_of_at? hd).2, if_pos rfl, hd', Option.map_some,
      if_neg Bool.false_ne_true]

/-! ### The calls -/

/-- The calls that an operation makes. -/
def opCalls (profile : Profile) (s : Remapper × σ) : Op σ → List HostCall
  | .event action e => (s.1.process profile action e (Recorder.on s.2)).host.calls.toList
  | .finishDance => (s.1.finishDance (Recorder.on s.2)).2.calls.toList
  | .onHost _ => []

/-- The remapper without the dance of a position. -/
def without (p : Position) (r : Remapper) : Remapper := { r with dances := r.dances.filter (·.position != p) }

theorem at?_without : at? q (r.without p).dances = if q = p then none else at? q r.dances := at?_filter

/-- Only the due dances change the host, one after the other. -/
theorem settle_snd (due : Dance → Bool) (ds : List Dance) (h : σ) :
    (settle due ds h).2 = (ds.filter due).foldl (fun h d => (d.finish h).2.2) h := by
  induction ds generalizing h with
  | nil => rfl
  | cons d ds ih =>
    by_cases hd : due d = true
    · rw [List.filter_cons_of_pos hd, List.foldl_cons, ← ih]
      simp only [settle, hd, if_true]
    · rw [List.filter_cons_of_neg hd, ← ih]
      simp only [settle, hd]
      rfl

theorem host_interruptDances (q : Position) (r : Remapper) (h : σ) :
    (r.interruptDances q h).2 = (r.dances.filter (isDue q)).foldl (fun h d => (d.interrupt.finish h).2.2) h := by
  let mark (d : Dance) : Dance := if d.isDue q then d.interrupt else d
  have hdue : isDue q ∘ mark = isDue q := by
    funext d
    show (mark d).isDue q = d.isDue q
    dsimp only [mark]
    split <;> rfl
  have hmark : ∀ d ∈ r.dances.filter (isDue q), mark d = d.interrupt :=
    fun d hd => if_pos (List.mem_filter.1 hd).2
  show (settle (isDue q) (r.dances.map mark) h).2 = _
  rw [settle_snd, List.filter_map, hdue, List.map_congr_left hmark, List.foldl_map]

/-- The calls of a press are those of the dances that it resolves, and its own. -/
theorem opCalls_press (profile : Profile) (action : Action) (q : Position) (r : Remapper) (h : σ) :
    opCalls profile (r, h) (.event action (.press q)) =
      (r.dances.filter (isDue q)).flatMap (fun d => d.interrupt.finishCalls) ++
        r.ownCalls profile action q (r.interruptDances q h).2 :=
  calls_process_press profile action q r h

theorem opCalls_finishDance (profile : Profile) (r : Remapper) (h : σ) :
    opCalls profile (r, h) .finishDance = (r.dances.filter (!·.isFinished)).flatMap finishCalls := by
  show (settle (!·.isFinished) r.dances (Recorder.on h)).2.calls.toList = _
  rw [calls_settle]
  rfl

/-- The own calls of a press do not depend on any dance. -/
theorem ownCalls_without (profile : Profile) (action : Action) (p q : Position) (r : Remapper) (h : σ) :
    (r.without p).ownCalls profile action q h = r.ownCalls profile action q h := by
  have halone : ∀ ds : List Dance, SettledBut q (ds.filter (·.position == q)) :=
    fun ds d hd hne => absurd (by simpa using (List.mem_filter.1 hd).2) hne
  exact congrArg Array.toList
    (calls_process_of_settledBut (halone (r.dances.filter (·.position != p))) (halone r.dances) profile action r _)

theorem filter_without {keep : Dance → Bool} (hkeep : ∀ d ∈ r.dances, keep d = true → d.position ≠ p) :
    (r.without p).dances.filter keep = r.dances.filter keep := by
  show (r.dances.filter (·.position != p)).filter keep = _
  rw [List.filter_filter]
  refine List.filter_congr fun d hd => ?_
  by_cases hk : keep d = true
  · simp [hk, hkeep d hd hk]
  · simp [hk]

/-- A press that does not resolve the dance of `p` makes the calls that it makes without it. -/
theorem opCalls_press_of_not_due (hdue : ∀ d ∈ r.dances, d.isDue q = true → d.position ≠ p) (profile : Profile)
    (action : Action) (h : σ) :
    opCalls profile (r, h) (.event action (.press q)) =
      opCalls profile (r.without p, h) (.event action (.press q)) := by
  rw [opCalls_press, opCalls_press, host_interruptDances, host_interruptDances, filter_without hdue, ownCalls_without]

/-- A press that resolves the one pending dance goes on without it. -/
theorem opCalls_press_of_due (hd : r.dances.filter (isDue q) = [d]) (hp : d.position = p) (profile : Profile)
    (action : Action) (h : σ) :
    opCalls profile (r, h) (.event action (.press q)) =
      d.interrupt.finishCalls ++
        opCalls profile (r.without p, (d.interrupt.finish h).2.2) (.event action (.press q)) := by
  have hnone : (r.without p).dances.filter (isDue q) = [] := by
    show (r.dances.filter (·.position != p)).filter (isDue q) = []
    rw [List.filter_comm, hd]
    simp [hp]
  rw [opCalls_press, opCalls_press, host_interruptDances, host_interruptDances, hd, hnone, ownCalls_without]
  simp

/-- The end of a tapping term has nothing to do with a finished dance. -/
theorem opCalls_finishDance_of_finished (hfin : ∀ d ∈ r.dances, d.isFinished = false → d.position ≠ p)
    (profile : Profile) (h : σ) :
    opCalls profile (r, h) .finishDance = opCalls profile (r.without p, h) .finishDance := by
  rw [opCalls_finishDance, opCalls_finishDance, filter_without fun d hd hk => hfin d hd (by simpa using hk)]

theorem opCalls_finishDance_of_pending (hd : r.dances.filter (!·.isFinished) = [d]) (hp : d.position = p)
    (profile : Profile) (h h' : σ) :
    opCalls profile (r, h) .finishDance = d.finishCalls ++ opCalls profile (r.without p, h') .finishDance := by
  have hnone : (r.without p).dances.filter (!·.isFinished) = [] := by
    show (r.dances.filter (·.position != p)).filter (!·.isFinished) = []
    rw [List.filter_comm, hd]
    simp [hp]
  rw [opCalls_finishDance, opCalls_finishDance, hd, hnone]
  simp

/-! ### Releases -/

/-- The host once the release of a layer tap has undone the dance of its position, if that is finished. -/
def undoneAt (q : Position) (ds : List Dance) (h : σ) : σ :=
  match at? q ds with
  | some d => if d.isFinished then d.undo h else h
  | none => h

theorem undoneAt_of_finished {ds : List Dance} (hd : at? q ds = some d) (hfin : d.isFinished = true) (h : σ) :
    undoneAt q ds h = d.undo h := by
  unfold undoneAt
  rw [hd]
  exact if_pos hfin

theorem undoneAt_of_not_finished {ds : List Dance} (hd : ∀ d, at? q ds = some d → d.isFinished = false) (h : σ) :
    undoneAt q ds h = h := by
  unfold undoneAt
  split
  · rename_i d hat
    rw [hd d hat, if_neg Bool.false_ne_true]
  · rfl

theorem host_dance_release (n : UInt8) (c : Chord) (q : Position) (r : Remapper) (h : σ) :
    (r.dance n c (.release q) h).2 = undoneAt q r.dances h := by
  cases hf : at? q r.dances with
  | none =>
    rw [dance_of_none_release hf, undoneAt_of_not_finished]
    rw [hf]
    intro d hd
    cases hd
  | some d =>
    cases hfin : d.isFinished with
    | true =>
      rw [dance_of_finished_release hf hfin, undoneAt_of_finished hf hfin]
    | false =>
      rw [dance_of_pending_release hf hfin, undoneAt_of_not_finished]
      rw [hf]
      rintro _ ⟨⟩
      exact hfin

/-- A release does what the filter does, and then undoes the dance of a layer tap that was left. -/
theorem host_process_release (profile : Profile) (action : Action) (q : Position) (r : Remapper) (h : σ) :
    (r.process profile action (.release q) h).host =
      let f := r.filter profile action (.release q) h
      match f.1, action with
      | false, .layerTap _ _ => undoneAt q r.dances f.2.2
      | _, _ => f.2.2 := by
  have hdances := dances_filter profile action (.release q) r h
  rw [process_eq, filtered_release]
  dsimp only
  cases (r.filter profile action (.release q) h).1 with
  | true => rfl
  | false =>
    cases action with
    | layerTap n c => exact (host_dance_release n c q _ _).trans (by rw [hdances])
    | none => rfl
    | key chord => rfl
    | shortcut s => rfl

/-- A release that does not end the dance of `p` makes the calls that it makes without it. -/
theorem opCalls_release_of_not_finished (hd : q = p → ∀ d, at? p r.dances = some d → d.isFinished = false)
    (profile : Profile) (action : Action) (h : σ) :
    opCalls profile (r, h) (.event action (.release q)) =
      opCalls profile (r.without p, h) (.event action (.release q)) := by
  have hundone : ∀ h : Recorder σ, undoneAt q (r.without p).dances h = undoneAt q r.dances h := by
    intro h
    by_cases hq : q = p
    · subst hq
      rw [undoneAt_of_not_finished (hd rfl), undoneAt_of_not_finished]
      intro d hat
      rw [at?_without, if_pos rfl] at hat
      cases hat
    · unfold undoneAt
      rw [at?_without, if_neg hq]
  have hfilter := filter_withDances profile action (.release q) r (r.dances.filter (·.position != p)) (Recorder.on h)
  have hsame : ((r.without p).process profile action (.release q) (Recorder.on h)).host =
      (r.process profile action (.release q) (Recorder.on h)).host := by
    rw [host_process_release, host_process_release]
    simp only [hundone]
    rw [without, hfilter]
  exact congrArg (fun rec : Recorder σ => rec.calls.toList) hsame.symm

/-- The release of a layer tap whose dance is finished goes on without it, and undoes it. -/
theorem opCalls_release_of_finished (hk : r.hijacked.get? p = none) (hd : at? p r.dances = some d)
    (hfin : d.isFinished = true) (profile : Profile) (n : UInt8) (c : Chord) (h : σ) :
    opCalls profile (r, h) (.event (.layerTap n c) (.release p)) =
      opCalls profile (r.without p, h) (.event (.layerTap n c) (.release p)) ++ d.undoCalls := by
  have hgone : ∀ d, at? p (r.without p).dances = some d → d.isFinished = false := by
    intro d hat
    rw [at?_without, if_pos rfl] at hat
    cases hat
  have hfilter := filter_withDances profile (.layerTap n c) (.release p) r (r.dances.filter (·.position != p))
    (Recorder.on h)
  show (r.process profile (.layerTap n c) (.release p) (Recorder.on h)).host.calls.toList =
    ((r.without p).process profile (.layerTap n c) (.release p) (Recorder.on h)).host.calls.toList ++ d.undoCalls
  rw [host_process_release, host_process_release, without, hfilter, filter_release_left rfl hk]
  dsimp only
  rw [undoneAt_of_finished hd hfin, calls_undo]
  exact congrArg (fun rec : Recorder σ => rec.calls.toList ++ d.undoCalls) (undoneAt_of_not_finished hgone _).symm

end Remapper

end ShiftRemap
