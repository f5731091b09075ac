import Mathlib.Data.List.Nodup
import ShiftRemap.Proofs.Dances
import ShiftRemap.Proofs.Filter

/-!
# Who holds a key

Every registered key but left shift has an owner: a key that is down and was not hijacked holds the keys of
its chord, a hijacked one those of its pair, and a resolved dance those of its chord. A key that is down is
remembered by the remapper if it was hijacked, and dances whose key is down belong to a layer tap that is
down. All this is `Owned`, and every stage of an event keeps it: a press may add an owner (`Owned.cons`,
`Owned.hijack`), and the owner whose key is released goes once its keys are let go (`Owned.drop`).

Left shift has no owner, because the filter and the tracker set and clear it.
-/

namespace ShiftRemap

/-- What the remapper remembers of a hijacked stroke. -/
def Stroke.entry (k : Stroke) : Position × KeyCode := (k.position, Remapper.triggerOf k.action)

/-- The keys that a stroke holds registered. -/
def Stroke.keys (table : PairTable) (k : Stroke) : List KeyCode :=
  if k.hijacked then
    match table.get? (Remapper.triggerOf k.action) with
    | some p => [p.normal.key, p.shifted.key]
    | none => []
  else
    match k.action with
    | .key c => c.keys
    | _ => []

/-- A key that was not hijacked holds the keys of the chord it is bound to. -/
theorem Stroke.mem_keys_left {table : PairTable} {k : Stroke} (hj : k.hijacked = false) {c : KeyCode} :
    c ∈ k.keys table ↔ ∃ chord, k.action = .key chord ∧ c ∈ chord.keys := by
  simp only [Stroke.keys, hj, Bool.false_eq_true, if_false]
  cases k.action <;> simp

/-- Every registered key but left shift has an owner. -/
structure Owned (table : PairTable) (down : List Stroke) (r : Remapper) (h : Reporter) : Prop where
  tidy : h.slots.Tidy
  /-- A position is down at most once. -/
  apart : (down.map (·.position)).Nodup
  /-- The remapper remembers the hijacked strokes, and only them. -/
  remembered : r.hijacked.entries.Perm ((down.filter (·.hijacked)).map Stroke.entry)
  paired : ∀ k ∈ down, k.hijacked = true → ∃ p, table.get? (Remapper.triggerOf k.action) = some p
  /-- A position dances at most once. -/
  dancesApart : (r.dances.map (·.position)).Nodup
  pressed : ∀ d ∈ r.dances, d.isFinished = true → d.pressed = true
  danced : ∀ d ∈ r.dances, d.pressed = true →
    ∃ k ∈ down, k.position = d.position ∧ k.hijacked = false ∧ ∃ n c, k.action = .layerTap n c
  owner : ∀ c, h.registered c → c = .leftShift ∨ (∃ k ∈ down, c ∈ k.keys table) ∨ ∃ d ∈ r.dances, c ∈ d.keys

namespace Owned

variable {table : PairTable} {down : List Stroke} {r : Remapper} {h h' : Reporter} {p : Position}

theorem new : Owned table [] {} (.new n) where
  tidy := Slots.tidy_empty
  apart := List.nodup_nil
  remembered := List.Perm.refl _
  paired _ hk := absurd hk List.not_mem_nil
  dancesApart := List.nodup_nil
  pressed _ hd := absurd hd List.not_mem_nil
  danced _ hd := absurd hd List.not_mem_nil
  owner c hc := absurd hc (Reporter.not_registered_new _ c)

theorem unique (ho : Owned table down r h) {k k' : Stroke} (hk : k ∈ down) (hk' : k' ∈ down)
    (he : k.position = k'.position) : k = k' :=
  List.inj_on_of_nodup_map ho.apart hk hk' he

theorem uniqueDance (ho : Owned table down r h) {d d' : Dance} (hd : d ∈ r.dances) (hd' : d' ∈ r.dances)
    (he : d.position = d'.position) : d = d' :=
  List.inj_on_of_nodup_map ho.dancesApart hd hd' he

/-- A host on which nothing but left shift was registered anew. -/
theorem mono (ho : Owned table down r h) (hs : h'.slots.Tidy)
    (hr : ∀ c, h'.registered c → h.registered c ∨ c = .leftShift) : Owned table down r h' :=
  { ho with tidy := hs, owner := fun c hc => (hr c hc).elim (ho.owner c) .inl }

theorem withTracker (ho : Owned table down r h) (t : ShiftTracker) :
    Owned table down { r with tracker := t } h := { ho with }

theorem track (ho : Owned table down r h) (e : KeyEvent) :
    Owned table down { r with tracker := (r.tracker.track e h).1 } (r.tracker.track e h).2 :=
  (ho.mono (Reporter.callsKeep_tidy.track ho.tidy)
    fun _ hc => .inl (ShiftTracker.registered_track ho.tidy hc)).withTracker _

/-! ## Resolving dances -/

theorem settle (ho : Owned table down r h) (due : Dance → Bool) :
    Owned table down { r with dances := (Dance.settle due r.dances h).1 } (Dance.settle due r.dances h).2 := by
  have hmem : ∀ d' ∈ (Dance.settle due r.dances h).1, ∃ d ∈ r.dances,
      d'.position = d.position ∧ d'.pressed = d.pressed ∧ (d'.isFinished = true → d'.pressed = true) := by
    intro d' hd'
    rw [Dance.settle_fst, List.mem_filterMap] at hd'
    obtain ⟨d, hd, he⟩ := hd'
    refine ⟨d, hd, ?_⟩
    split at he
    · have hp := Dance.pressed_of_resolved? he
      refine ⟨Dance.position_of_resolved? he, hp, fun _ => ?_⟩
      exact (Dance.isFinished_of_resolved? he).2.elim (fun hf => hp.trans (ho.pressed d hd hf)) id
    · cases he
      exact ⟨rfl, rfl, ho.pressed _ hd⟩
  exact { ho with
    tidy := Reporter.callsKeep_tidy.settle _ ho.tidy
    dancesApart := by
      rw [List.Nodup, List.pairwise_map, Dance.settle_fst]
      refine List.Pairwise.filterMap _ ?_ (List.pairwise_map.1 ho.dancesApart)
      intro a a' hne b hb b' hb'
      have hpos : ∀ {x y : Dance}, (if due x then x.resolved? else some x) = some y → y.position = x.position := by
        intro x y hy
        split at hy
        · exact Dance.position_of_resolved? hy
        · cases hy; rfl
      rw [hpos hb, hpos hb']
      exact hne
    pressed := fun d' hd' hf => by
      obtain ⟨_, _, _, _, himp⟩ := hmem d' hd'
      exact himp hf
    danced := fun d' hd' hp => by
      obtain ⟨d, hd, hpos, hpr, _⟩ := hmem d' hd'
      rw [hpos]
      exact ho.danced d hd (hpr ▸ hp)
    owner := fun c hc => by
      rcases Dance.registered_settle ho.tidy hc with hc | hc
      · rcases ho.owner c hc with hc | hc | ⟨d, hd, hc⟩
        · exact .inl hc
        · exact .inr (.inl hc)
        · -- a dance that holds a key is finished, so resolving leaves it as it is
          refine .inr (.inr ⟨d, ?_, hc⟩)
          rw [Dance.settle_fst, List.mem_filterMap]
          refine ⟨d, hd, ?_⟩
          rw [Dance.resolved?_of_isFinished (Dance.isFinished_of_mem_keys hc)]
          split <;> rfl
      · exact .inr (.inr hc) }

/-- Dances may be changed as long as position, key and outcome stay. -/
theorem mapDances (ho : Owned table down r h) {f : Dance → Dance} (hpos : ∀ d, (f d).position = d.position)
    (hpr : ∀ d, (f d).pressed = d.pressed) (hout : ∀ d, (f d).outcome? = d.outcome?)
    (hch : ∀ d, (f d).chord = d.chord) : Owned table down { r with dances := r.dances.map f } h :=
  { ho with
    dancesApart := by
      rw [List.map_map, show (fun d : Dance => d.position) ∘ f = (·.position) from funext hpos]
      exact ho.dancesApart
    pressed := fun d' hd' hf => by
      obtain ⟨d, hd, rfl⟩ := List.mem_map.1 hd'
      rw [hpr]
      exact ho.pressed d hd (by rwa [Dance.isFinished, hout] at hf)
    danced := fun d' hd' hp => by
      obtain ⟨d, hd, rfl⟩ := List.mem_map.1 hd'
      rw [hpos]
      exact ho.danced d hd (hpr d ▸ hp)
    owner := fun c hc => by
      rcases ho.owner c hc with hc | hc | ⟨d, hd, hc⟩
      · exact .inl hc
      · exact .inr (.inl hc)
      · refine .inr (.inr ⟨f d, List.mem_map_of_mem hd, ?_⟩)
        rwa [Dance.keys, hout, hch] }

theorem prepare (ho : Owned table down r h) (e : KeyEvent) : Owned table down (r.prepare e h).1 (r.prepare e h).2 := by
  unfold Remapper.prepare
  split
  · refine (ho.mapDances ?_ ?_ ?_ ?_).settle _ <;> intro d <;> split <;> rfl
  · exact ho

/-! ## Presses -/

/-- A key goes down that the filter left. -/
theorem cons (ho : Owned table down r h) (hp : ∀ k ∈ down, k.position ≠ p) (action : Action) :
    Owned table (⟨p, action, false⟩ :: down) r h where
  tidy := ho.tidy
  apart := by
    rw [List.map_cons, List.nodup_cons]
    refine ⟨fun hm => ?_, ho.apart⟩
    obtain ⟨k, hk, he⟩ := List.mem_map.1 hm
    exact hp k hk he
  remembered := ho.remembered
  paired k hk hj := by
    rcases List.mem_cons.1 hk with rfl | hk
    · cases hj
    · exact ho.paired k hk hj
  dancesApart := ho.dancesApart
  pressed := ho.pressed
  danced d hd hpr := by
    obtain ⟨k, hk, h⟩ := ho.danced d hd hpr
    exact ⟨k, List.mem_cons_of_mem _ hk, h⟩
  owner c hc := by
    rcases ho.owner c hc with hc | ⟨k, hk, hc⟩ | hc
    · exact .inl hc
    · exact .inr (.inl ⟨k, List.mem_cons_of_mem _ hk, hc⟩)
    · exact .inr (.inr hc)

/-- A key that is down and was not hijacked may register its chord. -/
theorem register (ho : Owned table down r h) {k : Stroke} {c : Chord} (hk : k ∈ down) (hj : k.hijacked = false)
    (ha : k.action = .key c) : Owned table down r (KeyHost.registerChord c h) :=
  { ho with
    tidy := Reporter.tidy_registerChord ho.tidy c
    owner := fun j hc => by
      rcases Reporter.registered_registerChord hc with hc | hc
      · exact ho.owner j hc
      · exact .inr (.inl ⟨k, hk, (Stroke.mem_keys_left hj).2 ⟨c, ha, hc⟩⟩) }

theorem get?_eq_none (ho : Owned table down r h) (hp : ∀ k ∈ down, k.hijacked = true → k.position ≠ p) :
    r.hijacked.get? p = none := by
  rw [HijackedKeys.get?, Option.map_eq_none_iff, List.find?_eq_none]
  intro e he
  obtain ⟨k, hk, rfl⟩ := List.mem_map.1 (ho.remembered.mem_iff.1 he)
  obtain ⟨hk, hj⟩ := List.mem_filter.1 hk
  simpa [Stroke.entry] using hp k hk hj

theorem get?_eq_some (ho : Owned table down r h) {k : Stroke} (hk : k ∈ down) (hj : k.hijacked = true) :
    r.hijacked.get? k.position = some (Remapper.triggerOf k.action) := by
  have hmem : k.entry ∈ r.hijacked.entries :=
    ho.remembered.mem_iff.2 (List.mem_map_of_mem (List.mem_filter.2 ⟨hk, hj⟩))
  obtain ⟨e, he⟩ : ∃ e, r.hijacked.entries.find? (·.1 == k.position) = some e := by
    rw [← Option.isSome_iff_exists, List.find?_isSome]
    exact ⟨k.entry, hmem, by simp [Stroke.entry]⟩
  obtain ⟨x, hx, rfl⟩ := List.mem_map.1 (ho.remembered.mem_iff.1 (List.mem_of_find?_eq_some he))
  have hpos : x.position = k.position := by simpa [Stroke.entry] using List.find?_some he
  rw [ho.unique (List.mem_filter.1 hx).1 hk hpos] at he
  rw [HijackedKeys.get?, he]
  rfl

/-- As long as the hijacked keys that are down are few enough, there is room to remember another one. -/
theorem remember_eq (ho : Owned table down r h) (hp : ∀ k ∈ down, k.position ≠ p)
    (hroom : (down.filter (·.hijacked)).length < HijackedKeys.capacity) {σ : Type} [KeyHost σ] (k : KeyCode)
    (g : σ) : r.remember p k g = ({ r with hijacked := ⟨r.hijacked.entries ++ [(p, k)]⟩ }, g) := by
  have hlen : r.hijacked.entries.length < HijackedKeys.capacity := by
    rw [ho.remembered.length_eq, List.length_map]
    exact hroom
  have hins : r.hijacked.insert? p k = some ⟨r.hijacked.entries ++ [(p, k)]⟩ := by
    rw [HijackedKeys.insert?, ho.get?_eq_none fun k hk _ => hp k hk]
    simp [hlen]
  simp only [Remapper.remember, hins]

/-- A key goes down that the filter hijacks, as long as there is room to remember it. -/
theorem hijack (ho : Owned table down r h) (hp : ∀ k ∈ down, k.position ≠ p) {action : Action} {pair : Pair}
    (hpair : table.get? (Remapper.triggerOf action) = some pair)
    (hroom : (down.filter (·.hijacked)).length < HijackedKeys.capacity) (held : Bool) :
    let step := r.remember p (Remapper.triggerOf action) (ShiftFilter.press pair held h)
    Owned table (⟨p, action, true⟩ :: down) step.1 step.2 := by
  have hnew := ho.cons hp action
  rw [ho.remember_eq hp hroom]
  exact { hnew with
    tidy := Reporter.callsKeep_tidy.press ho.tidy
    remembered := by
      simp only [List.filter_cons, if_true, List.map_cons]
      exact (List.perm_append_singleton _ _).trans (ho.remembered.cons _)
    paired := fun k hk hj => by
      rcases List.mem_cons.1 hk with rfl | hk
      · exact ⟨pair, hpair⟩
      · exact ho.paired k hk hj
    danced := fun d hd hpr => by
      obtain ⟨k, hk, h⟩ := ho.danced d hd hpr
      exact ⟨k, List.mem_cons_of_mem _ hk, h⟩
    owner := fun c hc => by
      rcases ShiftFilter.registered_press ho.tidy hc with hc | hc | hc
      · rcases ho.owner c hc with hc | ⟨k, hk, hc⟩ | hc
        · exact .inl hc
        · exact .inr (.inl ⟨k, List.mem_cons_of_mem _ hk, hc⟩)
        · exact .inr (.inr hc)
      · exact .inl hc
      · refine .inr (.inl ⟨_, List.mem_cons_self .., ?_⟩)
        simp only [Stroke.keys, if_true, hpair, hc, Pair.output]
        split <;> simp }

/-- A dance may change as long as what it holds stays and its key is down where it has to be. -/
theorem replaceDance (ho : Owned table down r h) {d d' : Dance} (hd : d ∈ r.dances)
    (hpos : d'.position = d.position) (hfin : d'.isFinished = true → d'.pressed = true)
    (hpr : d'.pressed = true →
      ∃ k ∈ down, k.position = d.position ∧ k.hijacked = false ∧ ∃ n c, k.action = .layerTap n c)
    (hkeys : ∀ c ∈ d.keys, c ∈ d'.keys) :
    Owned table down { r with dances := r.dances.map fun x => if x.position = d.position then d' else x } h := by
  have hmem : ∀ x ∈ r.dances.map (fun x => if x.position = d.position then d' else x),
      x = d' ∨ x ∈ r.dances ∧ x.position ≠ d.position := by
    intro x hx
    obtain ⟨y, hy, rfl⟩ := List.mem_map.1 hx
    split
    · exact .inl rfl
    · rename_i hne; exact .inr ⟨hy, hne⟩
  exact { ho with
    dancesApart := by
      rw [List.map_map]
      refine (List.map_congr_left fun x _ => ?_).symm ▸ ho.dancesApart
      simp only [Function.comp_apply]
      split
      · rename_i he; rw [hpos, he]
      · rfl
    pressed := fun x hx hf => by
      rcases hmem x hx with rfl | ⟨hx, _⟩
      · exact hfin hf
      · exact ho.pressed x hx hf
    danced := fun x hx hp => by
      rcases hmem x hx with rfl | ⟨hx, _⟩
      · rw [hpos]; exact hpr hp
      · exact ho.danced x hx hp
    owner := fun c hc => by
      rcases ho.owner c hc with hc | hc | ⟨x, hx, hc⟩
      · exact .inl hc
      · exact .inr (.inl hc)
      · refine .inr (.inr ⟨_, List.mem_map_of_mem hx, ?_⟩)
        split
        · rename_i he
          rw [ho.uniqueDance hx hd he] at hc
          exact hkeys c hc
        · exact hc }

theorem eq_of_find? {d : Dance} (hf : r.dances.find? (·.position == p) = some d) :
    d ∈ r.dances ∧ d.position = p :=
  ⟨List.mem_of_find?_eq_some hf, by simpa using List.find?_some hf⟩

/-- The press of a layer tap begins a dance or counts as a tap. -/
theorem dancePress (ho : Owned table down r h) {k : Stroke} {n : UInt8} {c : Chord} (hk : k ∈ down)
    (hj : k.hijacked = false) (ha : k.action = .layerTap n c) :
    let step := r.dance n c (.press k.position) h
    Owned table down step.1 step.2 := by
  unfold Remapper.dance
  cases hf : r.dances.find? (·.position == k.position) with
  | none =>
    simp only [KeyEvent.press, hf]
    split
    · exact { ho with
        dancesApart := by
          rw [List.map_append, List.nodup_append]
          refine ⟨ho.dancesApart, List.nodup_singleton _, ?_⟩
          rintro a ha b hb rfl
          obtain ⟨d, hd, rfl⟩ := List.mem_map.1 ha
          have hne := List.find?_eq_none.1 hf d hd
          exact hne (by simpa [Dance.start] using hb)
        pressed := fun d hd hfin => by
          rcases List.mem_append.1 hd with hd | hd
          · exact ho.pressed d hd hfin
          · rw [List.mem_singleton.1 hd]; rfl
        danced := fun d hd hpr => by
          rcases List.mem_append.1 hd with hd | hd
          · exact ho.danced d hd hpr
          · rw [List.mem_singleton.1 hd]
            exact ⟨k, hk, rfl, hj, n, c, ha⟩
        owner := fun j hc => by
          rcases ho.owner j hc with hc | hc | ⟨d, hd, hc⟩
          · exact .inl hc
          · exact .inr (.inl hc)
          · exact .inr (.inr ⟨d, List.mem_append_left _ hd, hc⟩) }
    · exact ho.mono ho.tidy fun _ hc => .inl (Reporter.registered_note.1 hc)
  | some d =>
    simp only [KeyEvent.press, hf]
    obtain ⟨hd, hdp⟩ := eq_of_find? hf
    rw [← hdp]
    have hstroke : ∃ k ∈ down, k.position = d.position ∧ k.hijacked = false ∧ ∃ n c, k.action = .layerTap n c :=
      ⟨k, hk, hdp.symm, hj, n, c, ha⟩
    cases hfin : d.isFinished with
    | true =>
      simp only [if_true]
      exact ho.replaceDance hd rfl (ho.pressed d hd) (fun _ => hstroke) fun _ hc => hc
    | false =>
      simp only [Bool.false_eq_true, if_false]
      exact ho.replaceDance hd rfl (fun _ => rfl) (fun _ => hstroke) fun _ hc => hc

/-! ## Releases -/

/-- The release of a layer tap lets go of what its dance holds. -/
theorem danceRelease (ho : Owned table down r h) (n : UInt8) (c : Chord) (p : Position) :
    let step := r.dance n c (.release p) h
    Owned table down step.1 step.2 ∧ step.1.hijacked = r.hijacked ∧
      ∀ d ∈ step.1.dances, d.pressed = true → d.position ≠ p := by
  unfold Remapper.dance
  cases hf : r.dances.find? (·.position == p) with
  | none =>
    simp only [KeyEvent.release, hf]
    refine ⟨ho, trivial, fun d hd _ => ?_⟩
    simpa using List.find?_eq_none.1 hf d hd
  | some d =>
    simp only [KeyEvent.release, hf]
    obtain ⟨hd, rfl⟩ := eq_of_find? hf
    cases hfin : d.isFinished with
    | true =>
      have hrel : d.release h = ({ d with pressed := false }, true, Dance.undo { d with pressed := false } h) :=
        if_pos hfin
      simp only [hrel, if_true]
      have hundo : ∀ j, (Dance.undo { d with pressed := false } h).registered j → h.registered j ∧ j ∉ d.keys :=
        fun _ hj => Dance.registered_undo ho.tidy hj
      refine ⟨?_, trivial, fun x hx _ => by simpa using (List.mem_filter.1 hx).2⟩
      exact { ho with
        tidy := Reporter.callsKeep_tidy.undo ho.tidy
        dancesApart := ho.dancesApart.sublist (List.filter_sublist.map _)
        pressed := fun x hx => ho.pressed x (List.mem_filter.1 hx).1
        danced := fun x hx => ho.danced x (List.mem_filter.1 hx).1
        owner := fun j hj => by
          obtain ⟨hj, hne⟩ := hundo j hj
          rcases ho.owner j hj with hj | hj | ⟨x, hx, hj⟩
          · exact .inl hj
          · exact .inr (.inl hj)
          · refine .inr (.inr ⟨x, List.mem_filter.2 ⟨hx, ?_⟩, hj⟩)
            rw [bne_iff_ne]
            intro he
            exact hne (ho.uniqueDance hx hd he ▸ hj) }
    | false =>
      have hfin' : ¬ d.isFinished = true := by simp [hfin]
      have hrel : d.release h = ({ d with pressed := false }, false, h) := if_neg hfin'
      simp only [hrel, Bool.false_eq_true, if_false]
      refine ⟨ho.replaceDance hd rfl (fun hf => absurd hf hfin') (fun hp => by cases hp) fun _ hc => hc, trivial, ?_⟩
      intro x hx hp
      obtain ⟨y, hy, rfl⟩ := List.mem_map.1 hx
      split at hp
      · cases hp
      · rename_i hne
        simp [hne]

/-- Only a layer tap that was not hijacked has a dance whose key is down. -/
theorem not_dancing (ho : Owned table down r h) {k : Stroke} (hk : k ∈ down)
    (hne : k.hijacked = true ∨ ∀ n c, k.action ≠ .layerTap n c) :
    ∀ d ∈ r.dances, d.pressed = true → d.position ≠ k.position := by
  intro d hd hp he
  obtain ⟨x, hx, hpos, hj, n, c, ha⟩ := ho.danced d hd hp
  obtain rfl := ho.unique hx hk (hpos.trans he)
  rcases hne with hne | hne
  · rw [hj] at hne; cases hne
  · exact hne n c ha

/-- A key comes up of which nothing is registered any more. -/
theorem drop (ho : Owned table down r h) {k : Stroke} (hk : k ∈ down)
    (hfree : ∀ c ∈ k.keys table, h.registered c → c = .leftShift)
    (hdance : ∀ d ∈ r.dances, d.pressed = true → d.position ≠ k.position) :
    Owned table (down.filter (·.position != k.position))
      { r with hijacked := r.hijacked.erase k.position } h where
  tidy := ho.tidy
  apart := ho.apart.sublist (List.filter_sublist.map _)
  remembered := by
    have hperm := ho.remembered.filter (·.1 != k.position)
    rw [List.filter_map, List.filter_comm] at hperm
    exact hperm
  paired x hx := ho.paired x (List.mem_filter.1 hx).1
  dancesApart := ho.dancesApart
  pressed := ho.pressed
  danced d hd hp := by
    obtain ⟨x, hx, he, h⟩ := ho.danced d hd hp
    refine ⟨x, List.mem_filter.2 ⟨hx, ?_⟩, he, h⟩
    rw [bne_iff_ne, he]
    exact hdance d hd hp
  owner c hc := by
    rcases ho.owner c hc with hl | ⟨x, hx, hxc⟩ | hd
    · exact .inl hl
    · by_cases he : x.position = k.position
      · exact .inl (hfree c (ho.unique hx hk he ▸ hxc) hc)
      · exact .inr (.inl ⟨x, List.mem_filter.2 ⟨hx, by simpa using he⟩, hxc⟩)
    · exact .inr (.inr hd)

/-- A key that was not hijacked is not remembered, so nothing has to be forgotten. -/
theorem dropLeft (ho : Owned table down r h) {k : Stroke} (hk : k ∈ down) (hj : k.hijacked = false)
    (hfree : ∀ c ∈ k.keys table, h.registered c → c = .leftShift)
    (hdance : ∀ d ∈ r.dances, d.pressed = true → d.position ≠ k.position) :
    Owned table (down.filter (·.position != k.position)) r h := by
  have herase : r.hijacked.erase k.position = r.hijacked := by
    have hnone := ho.get?_eq_none (p := k.position) fun x hx hxj he => by
      rw [ho.unique hx hk he, hj] at hxj
      cases hxj
    rw [HijackedKeys.get?, Option.map_eq_none_iff, List.find?_eq_none] at hnone
    exact congrArg HijackedKeys.mk (List.filter_eq_self.2 fun e he => by simpa using hnone e he)
  have hd := ho.drop hk hfree hdance
  rwa [herase] at hd

/-- The release of a hijacked key lets go of both keys of its pair. -/
theorem unhijack (ho : Owned table down r h) {k : Stroke} (hk : k ∈ down) (hj : k.hijacked = true) {pair : Pair}
    (hpair : table.get? (Remapper.triggerOf k.action) = some pair) (held : Bool) :
    Owned table (down.filter (·.position != k.position))
      { r with hijacked := r.hijacked.erase k.position } (ShiftFilter.release pair held h) := by
  have hrel : ∀ c, (ShiftFilter.release pair held h).registered c →
      h.registered c ∧ c ∉ k.keys table ∨ c = .leftShift := by
    intro c hc
    rcases ShiftFilter.registered_release ho.tidy hc with ⟨hc, hn, hd⟩ | ⟨_, hl⟩
    · refine .inl ⟨hc, ?_⟩
      simp only [Stroke.keys, hj, if_true, hpair, List.mem_cons, List.not_mem_nil, or_false, not_or]
      exact ⟨hn, hd⟩
    · exact .inr hl
  have hm := ho.mono (Reporter.callsKeep_tidy.release ho.tidy) fun c hc => (hrel c hc).imp_left And.left
  exact hm.drop hk (fun c hc hr => (hrel c hr).resolve_left fun h => h.2 hc) (ho.not_dancing hk (.inl hj))

end Owned

end ShiftRemap
