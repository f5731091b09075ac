import ShiftRemap.Proofs.OneDance
import ShiftRemap.Proofs.WellFormedRuns

/-!
# The life of a dance

A dance lives in two phases. From the press that begins it on it waits (`Remapper.Waits`): it counts the presses
of layer taps at its position, up to `Dance.tapsMax`, and knows whether its key is down. The first press elsewhere
or end of a tapping term finishes it (`Remapper.Waits.finish`): it turns out to be what the number of its taps
says (`TurnsOut`), however many there were, and if its key is up it is over. If its key is down it is held
(`Remapper.Holds`): nothing that comes changes it, until its key is released, which undoes the outcome.

All other operations make the calls that they make without the dance, so the calls that are made for it are those
of its outcome when it is finished, and those that undo it when it ends (`Remapper.life_of_dance`).
-/

namespace ShiftRemap

/-! ## Outcomes by the number of taps -/

/-- What a dance of `n` taps turns out to be, finished by a press or not, with its key down or up. -/
inductive TurnsOut (n : Nat) (byPress down : Bool) : Outcome → Prop
  | tap (one : n = 1) (h : byPress = true ∨ down = false) : TurnsOut n byPress down .singleTap
  | hold (one : n = 1) (term : byPress = false) (held : down = true) : TurnsOut n byPress down .singleHold
  | double (two : n = 2) : TurnsOut n byPress down .doubleTap
  | unknown (many : 3 ≤ n) : TurnsOut n byPress down .unknown

/-- The counter stops far beyond the numbers that matter. -/
theorem turnsOut_classify {n : Nat} (hn : 1 ≤ n) (byPress down : Bool) :
    TurnsOut n byPress down (Outcome.classify (min n Dance.tapsMax) byPress down) := by
  obtain rfl | rfl | hmany : n = 1 ∨ n = 2 ∨ 3 ≤ n := by omega
  · cases byPress <;> cases down
    · exact .tap rfl (.inr rfl)
    · exact .hold rfl rfl rfl
    · exact .tap rfl (.inl rfl)
    · exact .tap rfl (.inl rfl)
  · exact .double rfl
  · have hcount : 3 ≤ min n Dance.tapsMax := Nat.le_min.2 ⟨hmany, by decide⟩
    obtain ⟨k, hk⟩ := Nat.exists_eq_add_of_le hcount
    rw [hk, Nat.add_comm]
    exact .unknown hmany

namespace Dance

variable {σ : Type} [KeyHost σ] {d : Dance}

/-- The host once a dance is resolved as `o`: the outcome has begun, and is undone at once if the key is up. -/
def concluded (o : Outcome) (d : Dance) (h : σ) : σ :=
  let h := d.begin o (KeyHost.note (.danceFinished d.position o) h)
  if d.pressed then h else d.undo h

theorem host_finish (hf : d.isFinished = false) (h : σ) :
    (d.finish h).2.2 = d.classified.concluded (Outcome.classify d.taps d.interrupted d.pressed) h := by
  rcases Bool.eq_false_or_eq_true d.pressed with hp | hp
  · rw [finish_of_pressed hf hp]
    exact (if_pos hp).symm
  · rw [finish_of_released hf hp]
    exact (if_neg (Bool.eq_false_iff.1 hp)).symm

end Dance

namespace Remapper

open Dance

variable {σ : Type}

/-! ## What matters to the dance of a position -/

/-- A layer tap is pressed at the position. -/
def taps (p : Position) : Op σ → Bool
  | .event (.layerTap _ _) e => e.pressed && e.position == p
  | .event _ _ | .finishDance | .onHost _ => false

/-- A key is pressed at another position, or a tapping term ends. -/
def finishes (p : Position) : Op σ → Bool
  | .event _ e => e.pressed && e.position != p
  | .finishDance => true
  | .onHost _ => false

/-- The key of the position is released. -/
def letsGo (p : Position) : Op σ → Bool
  | .event _ e => !e.pressed && e.position == p
  | .finishDance | .onHost _ => false

def isPress : Op σ → Bool
  | .event _ e => e.pressed
  | .finishDance | .onHost _ => false

/-- The last layer tap that was pressed at the position is still down. -/
def tapDown (p : Position) (done : List (Op σ)) : Bool :=
  match heldAt? p done with
  | some (.layerTap _ _) => true
  | _ => false

theorem tapDown_of_press {action : Action} {p : Position} {done : List (Op σ)}
    (halt : Alternates done (.event action (.press p))) : tapDown p done = false := by
  have hup : heldAt? p done = none := halt
  rw [tapDown, hup]

theorem tapDown_of_held {p : Position} {done done' : List (Op σ)} (h : heldAt? p done' = heldAt? p done) :
    tapDown p done' = tapDown p done := by
  rw [tapDown, tapDown, h]

theorem heldAt?_of_finishes {p : Position} {op : Op σ} (hop : finishes p op = true) {done : List (Op σ)} :
    heldAt? p (done ++ [op]) = heldAt? p done := by
  rcases op with ⟨action, q, _ | _⟩ | _ | change
  · cases hop
  · have hq : q ≠ p := by simpa [finishes] using hop
    exact heldAt?_of_ne (e := .press q) hq done action
  · exact heldAt?_concat p done .finishDance
  · cases hop

variable [KeyHost σ] {profile : Profile} {p : Position} {n : UInt8} {c : Chord} {count : Nat}
variable {done : List (Op σ)} {s : Remapper × σ} {op : Op σ} {action : Action}

/-! ## While the dance waits -/

/-- The dance that the press of `layerTap n c` has begun at `p` waits, after `count` taps. -/
structure Waits (p : Position) (n : UInt8) (c : Chord) (count : Nat) (done : List (Op σ)) (r : Remapper) : Prop
    extends Known done r where
  waiting : at? p r.dances = some { start p n c with taps := min count tapsMax, pressed := tapDown p done }

namespace Waits

/-- What does not finish a dance that waits makes the calls that it makes without it. -/
theorem calls (hw : Waits p n c count done s.1) (hop : finishes p op = false) :
    opCalls profile s op = opCalls profile (s.1.without p, s.2) op := by
  rcases op with ⟨action, q, _ | _⟩ | _ | change
  · refine opCalls_release_of_not_finished (fun hq d hd => ?_) profile action s.2
    rw [hw.waiting] at hd
    cases hd
    rfl
  · have hq : q = p := by simpa [finishes] using hop
    refine opCalls_press_of_not_due (fun d hd hdue => ?_) profile action s.2
    rw [← hq]
    exact (isDue_iff.1 hdue).1
  · cases hop
  · rfl

/-- A press at the position of a dance that waits is a tap if it is that of a layer tap. -/
theorem press (ht : profile.pairs.get? .no = none) (hw : Waits p n c count done s.1)
    (halt : Alternates done (.event action (.press p))) :
    let op : Op σ := .event action (.press p)
    Waits p n c (if taps p op then count + 1 else count) (done ++ [op]) (apply profile s op).1 := by
  intro op
  refine ⟨hw.toKnown.press ht halt s.2, ?_⟩
  have hwaiting := hw.waiting
  have hdown : tapDown p (done ++ [op]) = taps p op := by
    rw [tapDown, heldAt?_press]
    cases action <;> simp [op, taps, KeyEvent.press]
  rw [hdown]
  cases htap : taps p op with
  | true =>
    obtain ⟨m, k, rfl⟩ : ∃ m k, action = .layerTap m k := by
      cases action <;> first | exact ⟨_, _, rfl⟩ | cases htap
    have hat := at?_process_tap ht hw.orderly hwaiting m k s.2
    rw [if_pos rfl]
    refine hat.trans ?_
    simp [start, isFinished, tap, tapsMax]
    omega
  | false =>
    have hact : ∀ m k, action ≠ .layerTap m k := by
      rintro m k rfl
      simp [op, taps, KeyEvent.press] at htap
    rw [if_neg Bool.false_ne_true]
    rw [tapDown_of_press halt] at hwaiting
    have hds : (s.1.process profile action (.press p) s.2).remapper.dances = (s.1.prepare (.press p) s.2).1.dances :=
      dances_process_of_not_layerTap hact (.press p) s.1 s.2
    exact (congrArg (at? p) hds).trans ((at?_prepare_self hw.orderly (.press p) s.2).trans hwaiting)

/-- A release lets the dance go on with its key up, if it is the release of its key. -/
theorem release (hw : Waits p n c count done s.1) (halt : Alternates done (.event action (.release p))) :
    let op : Op σ := .event action (.release p)
    Waits p n c count (done ++ [op]) (apply profile s op).1 := by
  intro op
  refine ⟨hw.toKnown.release s.2, ?_⟩
  have hwaiting := hw.waiting
  have hdown : tapDown p (done ++ [op]) = false := by rw [tapDown, heldAt?_release]
  rw [hdown]
  by_cases hact : ∃ m k, action = .layerTap m k
  · obtain ⟨m, k, rfl⟩ := hact
    have hnone := hw.toKnown.not_recorded (show heldAt? p done = some (.layerTap m k) from halt)
    exact at?_process_letGo hnone hwaiting m k s.2
  · have hup : tapDown p done = false := by
      rw [tapDown, show heldAt? p done = some action from halt]
      cases action <;> first | rfl | exact absurd ⟨_, _, rfl⟩ hact
    rw [hup] at hwaiting
    have hact : ∀ m k, action ≠ .layerTap m k := fun m k h => hact ⟨m, k, h⟩
    have hds : (s.1.process profile action (.release p) s.2).remapper.dances = s.1.dances :=
      dances_process_of_not_layerTap hact (.release p) s.1 s.2
    exact (congrArg (at? p) hds).trans hwaiting

/-- One operation that does not finish the dance. -/
theorem step (ht : profile.pairs.get? .no = none) (hw : Waits p n c count done s.1) (halt : Alternates done op)
    (hop : finishes p op = false) :
    Waits p n c (if taps p op then count + 1 else count) (done ++ [op]) (apply profile s op).1 := by
  rcases op with ⟨action, q, _ | _⟩ | _ | change
  · have htap : taps p (.event action (.release q) : Op σ) = false := by cases action <;> rfl
    rw [show (⟨q, false⟩ : KeyEvent) = .release q from rfl] at halt ⊢
    rw [htap, if_neg Bool.false_ne_true]
    by_cases hq : q = p
    · subst hq
      exact hw.release halt
    · have hheld := heldAt?_of_ne (e := .release q) hq done action
      refine ⟨hw.toKnown.step ht halt, ?_⟩
      rw [tapDown_of_held hheld, ← hw.waiting]
      exact at?_process_of_ne (e := .release q) hq profile action s.1 s.2
  · obtain rfl : q = p := by simpa [finishes] using hop
    exact hw.press ht halt
  · cases hop
  · refine ⟨hw.toKnown.step ht halt, ?_⟩
    rw [tapDown_of_held (heldAt?_concat p done (.onHost change))]
    exact hw.waiting

/-- What finishes the dance resolves it, marked as interrupted by a press, and goes on without it. -/
theorem resolve (profile : Profile) (hw : Waits p n c count done s.1) (hop : finishes p op = true) :
    let d : Dance :=
      { start p n c with taps := min count tapsMax, pressed := tapDown p done, interrupted := isPress op }
    opCalls profile s op = d.finishCalls ++ opCalls profile (s.1.without p, (d.finish s.2).2.2) op ∧
      at? p (apply profile s op).1.dances = d.resolved? := by
  have hmem := (mem_of_at? hw.waiting).1
  rcases op with ⟨action, q, _ | _⟩ | _ | change
  · cases hop
  · have hq : p ≠ q := Ne.symm (by simpa [finishes] using hop)
    have hdue : s.1.dances.filter (isDue q) = [_] :=
      filter_of_pending hw.orderly hmem rfl (isDue_iff.2 ⟨hq, rfl⟩) fun x _ hx => (isDue_iff.1 hx).2
    refine ⟨opCalls_press_of_due hdue rfl profile action s.2, ?_⟩
    refine (at?_process_of_ne (e := .press q) (Ne.symm hq) profile action s.1 s.2).trans ?_
    refine (at?_interruptDances hw.orderly p q s.2).trans ?_
    rw [hw.waiting, Option.bind_some]
    exact if_pos (isDue_iff.2 ⟨hq, rfl⟩)
  · have hdue : s.1.dances.filter (!·.isFinished) = [_] :=
      filter_of_pending hw.orderly hmem rfl rfl fun x _ hx => by simpa using hx
    refine ⟨opCalls_finishDance_of_pending hdue rfl profile s.2 _, ?_⟩
    refine (at?_finishDance hw.orderly p s.2).trans ?_
    rw [hw.waiting]
    rfl
  · cases hop

/-- The dance turns out to be what its taps say. It is over if its key is up, and else it is held. -/
theorem finish (profile : Profile) (hw : Waits p n c count done s.1) (hcount : 1 ≤ count) (hop : finishes p op = true) :
    ∃ (o : Outcome) (d : Dance),
      TurnsOut count (isPress op) (tapDown p done) o ∧ d.layer = n ∧ d.chord = c ∧ d.outcome? = some o ∧
      opCalls profile s op =
        d.beginCalls o ++ (if tapDown p done then [] else d.undoCalls) ++
          opCalls profile (s.1.without p, d.concluded o s.2) op ∧
      at? p (apply profile s op).1.dances = if tapDown p done then some d else none := by
  obtain ⟨hcalls, hat⟩ := hw.resolve profile hop
  let d : Dance :=
    { start p n c with taps := min count tapsMax, pressed := tapDown p done, interrupted := isPress op }
  have hfinish : d.finishCalls = d.beginCalls _ ++ if tapDown p done then [] else d.classified.undoCalls := rfl
  refine ⟨_, d.classified, turnsOut_classify hcount _ _, rfl, rfl, rfl, ?_, hat⟩
  rw [hcalls, hfinish, host_finish rfl]
  rfl

end Waits

/-! ## While the dance is held -/

/-- The dance `d` of `p` is resolved, and its key is down. -/
structure Holds (p : Position) (d : Dance) (done : List (Op σ)) (r : Remapper) : Prop extends Known done r where
  held : at? p r.dances = some d
  finished : d.isFinished = true
  down : tapDown p done = true

namespace Holds

variable {d : Dance}

/-- What does not release its key makes the calls that it makes without the dance. -/
theorem calls (hh : Holds p d done s.1) (hop : letsGo p op = false) :
    opCalls profile s op = opCalls profile (s.1.without p, s.2) op := by
  have hresolved : ∀ x ∈ s.1.dances, x.isFinished = false → x.position ≠ p := by
    rintro x hx hf rfl
    have hheld := hh.held
    rw [at?_of_mem hh.orderly hx] at hheld
    cases hheld
    exact absurd (hf.symm.trans hh.finished) Bool.false_ne_true
  rcases op with ⟨action, q, _ | _⟩ | _ | change
  · have hq : q ≠ p := by simpa [letsGo] using hop
    exact opCalls_release_of_not_finished (fun h => absurd h hq) profile action s.2
  · exact opCalls_press_of_not_due (fun x hx hdue => hresolved x hx (isDue_iff.1 hdue).2) profile action s.2
  · exact opCalls_finishDance_of_finished hresolved profile s.2
  · rfl

/-- The release of its key undoes the dance, which is over. -/
theorem letGo (hh : Holds p d done s.1) (halt : Alternates done op) (hop : letsGo p op = true) :
    opCalls profile s op = opCalls profile (s.1.without p, s.2) op ++ d.undoCalls ∧
      at? p (apply profile s op).1.dances = none := by
  rcases op with ⟨action, q, _ | _⟩ | _ | change
  · obtain rfl : q = p := by simpa [letsGo] using hop
    have haction : heldAt? q done = some action := halt
    have hdown := hh.down
    rw [tapDown, haction] at hdown
    obtain ⟨m, k, rfl⟩ : ∃ m k, action = .layerTap m k := by
      cases action <;> first | exact ⟨_, _, rfl⟩ | cases hdown
    have hnone := hh.toKnown.not_recorded haction
    refine ⟨opCalls_release_of_finished hnone hh.held hh.finished profile m k s.2, ?_⟩
    exact (at?_process_letGo hnone hh.held m k s.2).trans (if_pos hh.finished)
  · cases hop
  · cases hop
  · cases hop

/-- One operation that does not release the key. -/
theorem step (ht : profile.pairs.get? .no = none) (hh : Holds p d done s.1) (halt : Alternates done op)
    (hop : letsGo p op = false) : Holds p d (done ++ [op]) (apply profile s op).1 := by
  have hknown := hh.toKnown.step ht halt
  rcases op with ⟨action, q, _ | _⟩ | _ | change
  · have hq : q ≠ p := by simpa [letsGo] using hop
    have hheld := heldAt?_of_ne (e := .release q) hq done action
    refine ⟨hknown, ?_, hh.finished, (tapDown_of_held hheld).trans hh.down⟩
    exact (at?_process_of_ne (e := .release q) hq profile action s.1 s.2).trans hh.held
  · have hq : q ≠ p := by
      rintro rfl
      exact absurd (hh.down.symm.trans (tapDown_of_press halt)) Bool.noConfusion
    have hheld := heldAt?_of_ne (e := .press q) hq done action
    refine ⟨hknown, ?_, hh.finished, (tapDown_of_held hheld).trans hh.down⟩
    refine (at?_process_of_ne (e := .press q) hq profile action s.1 s.2).trans ?_
    refine (at?_interruptDances hh.orderly p q s.2).trans ?_
    rw [hh.held, Option.bind_some]
    refine if_neg fun hdue => ?_
    exact absurd ((isDue_iff.1 hdue).2.symm.trans hh.finished) Bool.false_ne_true
  · refine ⟨hknown, ?_, hh.finished, (tapDown_of_held (heldAt?_concat p done .finishDance)).trans hh.down⟩
    refine (at?_finishDance hh.orderly p s.2).trans ?_
    rw [hh.held]
    exact resolved?_of_isFinished hh.finished
  · exact ⟨hknown, hh.held, hh.finished, (tapDown_of_held (heldAt?_concat p done (.onHost change))).trans hh.down⟩

end Holds

/-! ## The whole life -/

/-- The press of a layer tap makes the calls that a press without an action makes. -/
theorem opCalls_tap (ht : profile.pairs.get? .no = none) (n : UInt8) (c : Chord) (p : Position) (s : Remapper × σ) :
    opCalls profile s (.event (.layerTap n c) (.press p)) = opCalls profile s (.event .none (.press p)) := by
  have hleft := filtered_layerTap_press ht n c p s.1 (Recorder.on s.2)
  have hsame : s.1.filtered profile .none (.press p) (Recorder.on s.2) =
      s.1.filtered profile (.layerTap n c) (.press p) (Recorder.on s.2) := rfl
  show (s.1.process profile (.layerTap n c) (.press p) (Recorder.on s.2)).host.calls.toList =
    (s.1.process profile .none (.press p) (Recorder.on s.2)).host.calls.toList
  rw [process_eq, process_eq, hsame]
  dsimp only
  rw [hleft, if_neg Bool.false_ne_true, if_neg Bool.false_ne_true]
  exact congrArg Array.toList (calls_dance_press ..)

/-- A dance that the press of a layer tap begins waits. -/
theorem Waits.begin (ht : profile.pairs.get? .no = none) (hk : Known done s.1)
    (halt : Alternates done (.event (.layerTap n c) (.press p))) (hnew : at? p s.1.dances = none)
    (hbegun : at? p (apply profile s (.event (.layerTap n c) (.press p))).1.dances ≠ none) :
    Waits p n c 1 (done ++ [.event (.layerTap n c) (.press p)])
      (apply profile s (.event (.layerTap n c) (.press p))).1 := by
  refine ⟨hk.step ht halt, ?_⟩
  obtain ⟨r, h, hr, hds⟩ := dances_process_layerTap (filtered_layerTap_press ht n c p s.1 s.2)
  have hbegin : at? p (r.dance n c (.press p) h).1.dances ≠ none := by rwa [← hds]
  have hnone : at? p r.dances = none := by
    rw [hr]
    exact (at?_prepare_self hk.orderly (.press p) s.2).trans hnew
  have hdown : tapDown p (done ++ [.event (.layerTap n c) (.press p)]) = true := by rw [tapDown, heldAt?_press]
  rw [hdown]
  refine (congrArg (at? p) hds).trans ?_
  rw [dance_of_none_press hnone] at hbegin ⊢
  split
  · have hfirst : at? p [start p n c] = some (start p n c) := by simp [at?, start]
    show at? p (r.dances ++ [start p n c]) = _
    unfold at? at hnone hfirst ⊢
    rw [List.find?_append, hnone, hfirst]
    rfl
  · rename_i hfull
    rw [if_neg hfull] at hbegin
    exact absurd hnone hbegin

/-- The presses of layer taps at the position. -/
def tapCount (p : Position) (ops : List (Op σ)) : Nat := ops.countP (taps p)

/-- A dance waits as long as nothing finishes it. -/
theorem Waits.run (ht : profile.pairs.get? .no = none) {ops : List (Op σ)} (hw : Waits p n c count done s.1)
    (hwf : WellFormed done ops) (hops : ∀ op ∈ ops, finishes p op = false) :
    Waits p n c (count + tapCount p ops) (done ++ ops) (run profile s ops).1 := by
  let I (done' : List (Op σ)) (s' : Remapper × σ) : Prop :=
    ∃ since, done' = done ++ since ∧ Waits p n c (count + tapCount p since) done' s'.1
  have hstart : I done s := ⟨[], (List.append_nil done).symm, hw⟩
  have hrun : I (done ++ ops) (Remapper.run profile s ops) := by
    refine hwf.keeps ?_ hstart
    rintro _ s' op hop ⟨since, rfl, hw⟩ halt
    refine ⟨since ++ [op], List.append_assoc .., ?_⟩
    have hcount : count + tapCount p (since ++ [op]) =
        if taps p op then count + tapCount p since + 1 else count + tapCount p since := by
      rw [tapCount, List.countP_append, List.countP_singleton]
      split <;> rfl
    rw [hcount]
    exact hw.step ht halt (hops op hop)
  obtain ⟨since, hsince, hw⟩ := hrun
  rwa [← List.append_cancel_left hsince] at hw

/-- A resolved dance is held as long as its key is not released. -/
theorem Holds.run {d : Dance} (ht : profile.pairs.get? .no = none) {ops : List (Op σ)} (hh : Holds p d done s.1)
    (hwf : WellFormed done ops) (hops : ∀ op ∈ ops, letsGo p op = false) :
    Holds p d (done ++ ops) (run profile s ops).1 :=
  hwf.keeps (I := fun done s => Holds p d done s.1) (fun hop hh halt => hh.step ht halt (hops _ hop)) hh

/-- The operation makes no call for the dance of `p`: it makes those that it makes without that dance. -/
def NoCallFor (profile : Profile) (p : Position) (s : Remapper × σ) (op : Op σ) : Prop :=
  opCalls profile s op = opCalls profile (s.1.without p, s.2) op

/-- The resolved dance `d` of `p` stays as it is and no call is made for it, until the release of its key undoes
the outcome and ends the dance. -/
def HeldUntilRelease (profile : Profile) (p : Position) (d : Dance) (s : Remapper × σ) (ops : List (Op σ)) : Prop :=
  ∀ ⦃held : List (Op σ)⦄ ⦃op : Op σ⦄ ⦃rest : List (Op σ)⦄, ops = held ++ op :: rest →
    (∀ x ∈ held, letsGo p x = false) →
    let s := run profile s held
    let left := at? p (apply profile s op).1.dances
    if letsGo p op then
      opCalls profile s op = opCalls profile (s.1.without p, s.2) op ++ d.undoCalls ∧ left = none
    else NoCallFor profile p s op ∧ left = some d

theorem Holds.heldUntilRelease {d : Dance} (ht : profile.pairs.get? .no = none) {ops : List (Op σ)}
    (hh : Holds p d done s.1) (hwf : WellFormed done ops) : HeldUntilRelease profile p d s ops := by
  rintro held op rest rfl hheld
  obtain ⟨hbefore, halt, -⟩ := WellFormed.append_iff.1 hwf
  have hh := hh.run ht hbefore hheld
  cases hop : letsGo p op with
  | true => exact hh.letGo halt hop
  | false => exact ⟨hh.calls hop, (hh.step ht halt hop).held⟩

variable (profile) in
/-- **The life of a dance.** Take a well-formed run on any host, and in it the press of a layer tap that begins a
dance at `p`. That press makes no call for the dance. The dance waits until the first later press at another
position or the first end of a tapping term; an operation before that makes no call for it. This operation
finishes the dance: it turns out to be what the number of layer taps pressed at `p` says, from the press that
began the dance, however many they are, and for a single one whether a press finished it and whether its key is
down. The operation makes the calls that begin the outcome, with the chord and the layer of the first press, at
once those that undo it if the key is up, and then its own as it makes them without the dance. If the key is up
the dance is over. If it is down, the dance stays with this outcome and no call is made for it, until the release
of its key makes the calls that undo the outcome; then it is over. -/
theorem life_of_dance (ht : profile.pairs.Built) (host : σ) {before after : List (Op σ)} {p : Position} {n : UInt8}
    {c : Chord} (hwf : WellFormed [] (before ++ .event (.layerTap n c) (.press p) :: after))
    (hnew : at? p (run profile ({}, host) before).1.dances = none)
    (hbegun : at? p (run profile ({}, host) (before ++ [.event (.layerTap n c) (.press p)])).1.dances ≠ none) :
    let first : Op σ := .event (.layerTap n c) (.press p)
    let s₀ := run profile ({}, host) before
    let s₁ := apply profile s₀ first
    (at? p s₁.1.dances = some (start p n c) ∧
      opCalls profile s₀ first = opCalls profile s₀ (.event .none (.press p))) ∧
    ∀ (waited : List (Op σ)) (op : Op σ) (rest : List (Op σ)), after = waited ++ op :: rest →
      (∀ x ∈ waited, finishes p x = false) →
      let s := run profile s₁ waited
      let next := apply profile s op
      let count := tapCount p (first :: waited)
      let down := tapDown p (before ++ first :: waited)
      (finishes p op = false →
        NoCallFor profile p s op ∧ ∃ d, at? p next.1.dances = some d ∧ d.isFinished = false) ∧
      (finishes p op = true →
        ∃ (o : Outcome) (d : Dance),
          TurnsOut count (isPress op) down o ∧ d.layer = n ∧ d.chord = c ∧ d.outcome? = some o ∧
          opCalls profile s op =
            d.beginCalls o ++ (if down then [] else d.undoCalls) ++
              opCalls profile (s.1.without p, d.concluded o s.2) op ∧
          at? p next.1.dances = (if down then some d else none) ∧
          (down = true → HeldUntilRelease profile p d next rest)) := by
  intro first s₀ s₁
  have hno := ht.get?_no
  obtain ⟨hbefore, hfirst, hafter⟩ := WellFormed.append_iff.1 hwf
  have hs₁ : run profile ({}, host) (before ++ [first]) = s₁ := List.foldl_append
  rw [hs₁] at hbegun
  have hbegin : Waits p n c 1 (before ++ [first]) s₁.1 :=
    Waits.begin hno (Known.run hno host hbefore) hfirst hnew hbegun
  have hdown : tapDown p (before ++ [first]) = true := by rw [tapDown, heldAt?_press]
  refine ⟨⟨?_, opCalls_tap hno n c p s₀⟩, ?_⟩
  · rw [hbegin.waiting, hdown]
    rfl
  rintro waited op rest rfl hwaited s next count down
  obtain ⟨hwf, halt, hrest⟩ := WellFormed.append_iff.1 hafter
  have hdone : [] ++ before ++ [first] ++ waited = before ++ first :: waited := by simp
  rw [hdone] at halt hrest
  have hcount : 1 + tapCount p waited = count := by
    have htap : taps p first = true := beq_self_eq_true p
    rw [Nat.add_comm]
    exact (List.countP_cons_of_pos htap).symm
  have hw : Waits p n c count (before ++ first :: waited) s.1 := by
    rw [← hcount, ← hdone]
    exact hbegin.run hno hwf hwaited
  constructor
  · intro hop
    exact ⟨hw.calls hop, _, (hw.step hno halt hop).waiting, rfl⟩
  · intro hop
    obtain ⟨o, d, hturns, hlayer, hchord, ho, hcalls, hleft⟩ := hw.finish profile (by omega) hop
    refine ⟨o, d, hturns, hlayer, hchord, ho, hcalls, hleft, fun hdown => ?_⟩
    have hheld := hleft.trans (if_pos hdown)
    have hfinished : d.isFinished = true := by rw [isFinished, ho]; rfl
    have hdown' : tapDown p (before ++ first :: waited ++ [op]) = true := by
      rw [tapDown_of_held (heldAt?_of_finishes hop), ← hdown]
    have hh : Holds p d _ next.1 := ⟨hw.toKnown.step hno halt, hheld, hfinished, hdown'⟩
    exact hh.heldUntilRelease hno hrest

/-- A layer tap is released and tapped again, when it is bound to something else. -/
def tapAgain : List (Op BenchHost) :=
  [.event (.layerTap 1 ⟨.keyZ, .ctrl⟩) (.release ⟨0, 0⟩), .event (.layerTap 2 ⟨.keyG, .gui⟩) (.press ⟨0, 0⟩)]

theorem life_of_doubleTap :
    let first : Op BenchHost := .event (.layerTap 1 ⟨.keyZ, .ctrl⟩) (.press ⟨0, 0⟩)
    let letGo : Op BenchHost := .event (.layerTap 2 ⟨.keyG, .gui⟩) (.release ⟨0, 0⟩)
    let s := run {} (apply {} (run {} ({}, { keysDown := 1 }) []) first) tapAgain
    WellFormed [] ([] ++ first :: (tapAgain ++ [.finishDance, letGo])) ∧
      ∃ d : Dance, d.layer = 1 ∧ d.chord = ⟨.keyZ, .ctrl⟩ ∧ d.outcome? = some .doubleTap ∧
        opCalls {} s .finishDance =
          d.beginCalls .doubleTap ++ opCalls {} (s.1.without ⟨0, 0⟩, d.concluded .doubleTap s.2) .finishDance ∧
        at? ⟨0, 0⟩ (apply {} s .finishDance).1.dances = some d ∧
        HeldUntilRelease {} ⟨0, 0⟩ d (apply {} s .finishDance) [letGo] := by
  have hwf : WellFormed [] ([] ++ .event (.layerTap 1 ⟨.keyZ, .ctrl⟩) (.press ⟨0, 0⟩) ::
      (tapAgain ++ [.finishDance, .event (.layerTap 2 ⟨.keyG, .gui⟩) (.release ⟨0, 0⟩)])) := by decide +kernel
  have hdown : tapDown ⟨0, 0⟩ ([] ++ .event (.layerTap 1 ⟨.keyZ, .ctrl⟩) (.press ⟨0, 0⟩) :: tapAgain) = true := by
    decide +kernel
  have hcount : tapCount ⟨0, 0⟩ (.event (.layerTap 1 ⟨.keyZ, .ctrl⟩) (.press ⟨0, 0⟩) :: tapAgain) = 2 := by
    decide +kernel
  obtain ⟨-, hlife⟩ := life_of_dance {} .empty { keysDown := 1 } hwf (by decide +kernel) (by decide +kernel)
  obtain ⟨o, d, hturns, hlayer, hchord, ho, hcalls, hleft, hheld⟩ :=
    (hlife tapAgain .finishDance _ rfl (by decide +kernel)).2 rfl
  rw [hcount] at hturns
  obtain rfl : o = .doubleTap := by
    cases hturns with
    | tap one _ | hold one _ _ => cases one
    | double _ => rfl
    | unknown many => omega
  rw [if_pos hdown, List.append_nil] at hcalls
  exact ⟨hwf, d, hlayer, hchord, ho, hcalls, hleft.trans (if_pos hdown), hheld hdown⟩

end Remapper

end ShiftRemap
