import ShiftRemap.Proofs.WireStreams

/-!
# Reading any bytes

What a reader makes of bytes that nobody has to have written. A reader decides on the bytes that it has taken:
what follows a value changes nothing, and what follows a fault changes nothing either, unless the fault is that
the bytes have ended (`Takes`). Readers one after another do so if each of them does (`Takes.bind`), and so it is
shown type by type.

A number may be read off several forms, of which one wastes no byte. The layout of a value says where the varints
and the single bytes of its wire form stand (`Laid.layout`, `cut`), and bytes that were read are the ones that
are written just if each of their varints is minimal (`IsForm`).
-/

namespace ShiftRemap.Wire

/-! ## Forms of a number -/

namespace Varint

/-- The varint at the front of some bytes: all up to the first byte that says that no other one follows. -/
def front : Bytes → Bytes
  | [] => []
  | b :: bs => if b.toNat < 128 then [b] else b :: front bs

variable {n left : Nat} {b : UInt8} {bs rest : Bytes}

theorem encode_of_lt (h : n < 128) : encode n = [.ofNat n] := by rw [encode, if_pos h]

theorem encode_ne_nil (n : Nat) : encode n ≠ [] := by
  rw [encode]
  split <;> exact List.cons_ne_nil _ _

/-- Of what is written only zero ends with a digit of zero. -/
theorem getLast?_encode (h : n ≠ 0) : (encode n).getLast? ≠ some 0 := by
  induction n using Nat.strongRecOn with
  | ind n ih =>
    rw [encode]
    split
    · rename_i hn
      rw [List.getLast?_singleton, ne_eq, Option.some_inj, ← UInt8.toNat_inj, UInt8.toNat_ofNat']
      show n % 256 ≠ 0
      omega
    · rw [List.getLast?_cons_of_ne_nil (encode_ne_nil _)]
      exact ih (n / 128) (by omega) (by omega)

theorem isMinimal_cons (h : bs ≠ []) : IsMinimal (b :: bs) ↔ bs.getLast? ≠ some 0 := by
  rw [IsMinimal, List.getLast?_cons_of_ne_nil h]
  simp [h]

/-- Bytes that are read as a number. -/
structure IsFormOf (n : Nat) (bs : Bytes) : Prop where
  front_append : ∀ more, front (bs ++ more) = bs
  length_le : (encode n).length ≤ bs.length
  eq_iff : bs = encode n ↔ IsMinimal bs

namespace IsFormOf

theorem ne_nil (h : IsFormOf n bs) : bs ≠ [] := by
  have hpos := List.length_pos_iff.2 (encode_ne_nil n)
  exact List.length_pos_iff.1 (Nat.lt_of_lt_of_le hpos h.length_le)

theorem single (h : b.toNat < 128) : IsFormOf b.toNat [b] where
  front_append more := by simp [front, h]
  length_le := by simp [encode_of_lt h]
  eq_iff := by simp [encode_of_lt h, IsMinimal]

/-- In front of zero another digit makes a form that wastes a byte. -/
theorem cons_zero (h : IsFormOf 0 bs) (hb : ¬ b.toNat < 128) : IsFormOf (b.toNat - 128) (b :: bs) where
  front_append more := by rw [List.cons_append, front, if_neg hb, h.front_append]
  length_le := by
    have hlt := b.toNat_lt
    simp [encode_of_lt (show b.toNat - 128 < 128 by omega)]
  eq_iff := by
    have hlt := b.toNat_lt
    have hlast : bs.getLast? = some 0 := by
      by_cases hm : IsMinimal bs
      · rw [h.eq_iff.2 hm, encode_of_lt (by decide)]
        rfl
      · exact Decidable.byContradiction fun hne => hm (.inr hne)
    rw [isMinimal_cons h.ne_nil, encode_of_lt (by omega)]
    simp [hlast, h.ne_nil]

/-- In front of any other number it wastes no byte that was not wasted before. -/
theorem cons_pos (h : IsFormOf n bs) (hn : n ≠ 0) (hb : ¬ b.toNat < 128) :
    IsFormOf (b.toNat - 128 + 128 * n) (b :: bs) := by
  have hlt := b.toNat_lt
  have henc : encode (b.toNat - 128 + 128 * n) = b :: encode n := by
    rw [encode, if_neg (by omega), show (b.toNat - 128 + 128 * n) / 128 = n by omega,
      show (b.toNat - 128 + 128 * n) % 128 + 128 = b.toNat by omega, UInt8.ofNat_toNat]
  constructor
  · intro more
    rw [List.cons_append, front, if_neg hb, h.front_append]
  · simpa [henc] using h.length_le
  · rw [henc, isMinimal_cons h.ne_nil, List.cons_inj_right]
    refine ⟨fun he => ?_, fun hlast => h.eq_iff.2 (.inr hlast)⟩
    rw [he]
    exact getLast?_encode hn

end IsFormOf

theorem readWithin_value (h : readWithin left bs = .ok (n, rest)) :
    ∃ taken, bs = taken ++ rest ∧ IsFormOf n taken ∧ ∀ more, readWithin left (taken ++ more) = .ok (n, more) := by
  induction left generalizing bs n with
  | zero => cases h
  | succ left ih =>
    cases bs with
    | nil => cases h
    | cons b bs =>
      rw [readWithin] at h
      split at h
      · rename_i hb
        split at h
        · cases h
        · rename_i hlast
          cases h
          refine ⟨[b], rfl, .single hb, fun more => ?_⟩
          simp only [List.cons_append, List.nil_append, readWithin, hb, hlast, if_true, if_false]
      · rename_i hb
        split at h
        · rename_i m rest' hm
          cases h
          obtain ⟨taken, rfl, hform, hmore⟩ := ih hm
          refine ⟨b :: taken, rfl, ?_, fun more => ?_⟩
          · by_cases h0 : m = 0
            · subst h0
              rw [Nat.mul_zero, Nat.add_zero]
              exact hform.cons_zero hb
            · exact hform.cons_pos h0 hb
          · simp only [List.cons_append, readWithin, hb, hmore, if_false]
        · cases h

theorem readWithin_fault {e : DecodeError} (h : readWithin left bs = .error e) (he : e ≠ .unexpectedEnd)
    (more : Bytes) : readWithin left (bs ++ more) = .error e := by
  induction left generalizing bs with
  | zero =>
    cases h
    rw [readWithin]
  | succ left ih =>
    cases bs with
    | nil =>
      cases h
      exact absurd rfl he
    | cons b bs =>
      rw [readWithin] at h
      rw [List.cons_append, readWithin]
      split at h
      · rename_i hb
        rw [if_pos hb]
        split at h
        · rename_i hlast
          rw [if_pos hlast]
          exact h
        · cases h
      · rename_i hb
        rw [if_neg hb]
        split at h
        · cases h
        · rename_i e' hm
          cases h
          rw [ih hm]

end Varint

/-! ## Layouts -/

/-- What stands at a place of a wire form. -/
inductive Part
  | varint
  | byte
  deriving DecidableEq

/-- A type whose values know the layout of their wire form. -/
class Laid (α : Type) where
  layout : α → List Part

open Laid

instance : Laid KeyCode := ⟨fun _ => [.varint]⟩

instance : Laid Combo := ⟨fun _ => [.byte]⟩

instance : Laid Chord := ⟨fun c => layout c.key ++ layout c.mods⟩

instance : Laid Pair := ⟨fun p => layout p.normal ++ layout p.shifted⟩

instance : Laid Shortcut := ⟨fun _ => [.varint]⟩

instance : Laid HostOs := ⟨fun _ => [.varint]⟩

instance : Laid Action where
  layout
    | .none => [.varint]
    | .key c => .varint :: layout c
    | .shortcut s => .varint :: layout s
    | .layerTap _ c => .varint :: .byte :: layout c

/-- Cuts bytes into the parts of a layout. -/
def cut : List Part → Bytes → List (Part × Bytes)
  | [], _ => []
  | .byte :: parts, bs => (.byte, bs.take 1) :: cut parts (bs.drop 1)
  | .varint :: parts, bs => (.varint, Varint.front bs) :: cut parts (bs.drop (Varint.front bs).length)

/-- Each varint among the bytes of a layout is minimal. -/
def IsMinimal (parts : List Part) (bs : Bytes) : Prop :=
  ∀ piece ∈ cut parts bs, piece.1 = .varint → Varint.IsMinimal piece.2

/-- Bytes that are read as what was written: no fewer than were written, and the same ones just if their varints
are minimal. -/
structure IsForm (written : Bytes) (parts : List Part) (bs : Bytes) : Prop where
  /-- What follows the bytes is left to further parts. -/
  cut_append : ∀ parts' bs', cut (parts ++ parts') (bs ++ bs') = cut parts bs ++ cut parts' bs'
  /-- The layout covers the bytes. -/
  flatMap_cut : (cut parts bs).flatMap Prod.snd = bs
  length_le : written.length ≤ bs.length
  eq_iff : bs = written ↔ IsMinimal parts bs

namespace IsForm

variable {w w' bs bs' : Bytes} {parts parts' : List Part}

theorem byte (b : UInt8) : IsForm [b] [.byte] [b] where
  cut_append _ _ := rfl
  flatMap_cut := rfl
  length_le := Nat.le_refl _
  eq_iff := by simp [IsMinimal, cut]

theorem varint {n : Nat} (h : Varint.IsFormOf n bs) : IsForm (Varint.encode n) [.varint] bs := by
  have hfront := h.front_append []
  rw [List.append_nil] at hfront
  constructor
  · intro parts' bs'
    simp only [List.cons_append, List.nil_append, cut, h.front_append, hfront, List.drop_left]
  · simp [cut, hfront]
  · exact h.length_le
  · simp [IsMinimal, cut, hfront, h.eq_iff]

/-- One form after another. -/
theorem append (h : IsForm w parts bs) (h' : IsForm w' parts' bs') :
    IsForm (w ++ w') (parts ++ parts') (bs ++ bs') where
  cut_append more more' := by
    rw [List.append_assoc, List.append_assoc, h.cut_append, h'.cut_append, h.cut_append, List.append_assoc]
  flatMap_cut := by rw [h.cut_append, List.flatMap_append, h.flatMap_cut, h'.flatMap_cut]
  length_le := by
    have := h.length_le
    have := h'.length_le
    simp only [List.length_append]
    omega
  eq_iff := by
    have hle := h.length_le
    have hle' := h'.length_le
    have hsplit : bs ++ bs' = w ++ w' ↔ bs = w ∧ bs' = w' := by
      refine ⟨fun he => ?_, fun ⟨he, he'⟩ => by rw [he, he']⟩
      -- neither of the two can be longer than what was written
      have hlen := congrArg List.length he
      simp only [List.length_append] at hlen
      exact List.append_inj he (by omega)
    rw [hsplit, h.eq_iff, h'.eq_iff]
    simp only [IsMinimal, h.cut_append, List.forall_mem_append]

end IsForm

/-! ## Readers -/

theorem run_bind_of_error {α β : Type} {m : Decoder α} {f : α → Decoder β} {bs : Bytes} {e : DecodeError}
    (h : m.run bs = .error e) : (m >>= f).run bs = .error e := by
  rw [StateT.run_bind, h]
  rfl

/-- A reader that decides on the bytes it has taken, which are in relation to the value that it finds. -/
structure Takes {α : Type} (m : Decoder α) (R : α → Bytes → Prop) : Prop where
  /-- What follows a value does not matter. -/
  value : ∀ {bs rest : Bytes} {a : α}, m.run bs = .ok (a, rest) →
    ∃ taken, bs = taken ++ rest ∧ R a taken ∧ ∀ more, m.run (taken ++ more) = .ok (a, more)
  /-- What follows a fault does not matter, unless the bytes have ended. -/
  fault : ∀ {bs : Bytes} {e : DecodeError}, m.run bs = .error e → e ≠ .unexpectedEnd →
    ∀ more, m.run (bs ++ more) = .error e

namespace Takes

variable {α β : Type} {m : Decoder α} {f : α → Decoder β} {R : α → Bytes → Prop} {T : β → Bytes → Prop}

theorem pure {a : α} (h : R a []) : Takes (Pure.pure a : Decoder α) R where
  value := by
    rintro bs rest x ⟨⟩
    exact ⟨[], rfl, h, fun _ => rfl⟩
  fault := nofun

theorem throw (e : DecodeError) : Takes (MonadExcept.throw e : Decoder α) R where
  value := nofun
  fault := by
    rintro bs x ⟨⟩ _ more
    rfl

/-- Two readers one after the other. -/
theorem bind (hm : Takes m R) (hf : ∀ a, Takes (f a) fun b later => ∀ taken, R a taken → T b (taken ++ later)) :
    Takes (m >>= f) T where
  value := by
    intro bs rest b h
    cases hrun : m.run bs with
    | error e =>
      rw [run_bind_of_error hrun] at h
      cases h
    | ok found =>
      obtain ⟨taken, rfl, hR, hmore⟩ := hm.value hrun
      rw [run_bind_of_ok hrun] at h
      obtain ⟨later, hlater, hT, hmore'⟩ := (hf found.1).value h
      refine ⟨taken ++ later, by rw [hlater, List.append_assoc], hT taken hR, fun more => ?_⟩
      rw [List.append_assoc, run_bind_of_ok (hmore _), hmore']
  fault := by
    intro bs e h he more
    cases hrun : m.run bs with
    | error e' =>
      rw [run_bind_of_error hrun] at h
      cases h
      exact run_bind_of_error (hm.fault hrun he more)
    | ok found =>
      obtain ⟨taken, rfl, -, hmore⟩ := hm.value hrun
      rw [run_bind_of_ok hrun] at h
      rw [List.append_assoc, run_bind_of_ok (hmore _)]
      exact (hf found.1).fault h he more

theorem readByte : Takes Wire.readByte fun b taken => IsForm [b] [.byte] taken where
  value := by
    intro bs rest b h
    cases bs with
    | nil => cases h
    | cons b' bs =>
      cases h
      exact ⟨[b], rfl, .byte b, fun _ => rfl⟩
  fault := by
    intro bs e h he
    cases bs with
    | nil =>
      cases h
      exact absurd rfl he
    | cons b bs => cases h

theorem read : Takes Varint.read fun n taken => IsForm (Varint.encode n) [.varint] taken where
  value h := by
    obtain ⟨taken, rfl, hform, hmore⟩ := Varint.readWithin_value h
    exact ⟨taken, rfl, .varint hform, hmore⟩
  fault h he more := Varint.readWithin_fault h he more

/-- The reader of an enumeration, if each value has one place in it. -/
theorem readVariant {all : List α} (place : α → Nat) (hplace : ∀ a, all[place a]? = some a) (hnodup : all.Nodup) :
    Takes (Wire.readVariant all) fun a taken => IsForm (Varint.encode (place a)) [.varint] taken := by
  refine read.bind fun n => ?_
  cases hn : all[n]? with
  | none => exact throw _
  | some a =>
    refine pure fun taken h => ?_
    have hlt : n < all.length := (List.getElem?_eq_some_iff.1 hn).1
    have he : n = place a := (List.getElem?_inj hlt hnodup).1 (hn.trans (hplace a).symm)
    rwa [← he, List.append_nil]

end Takes

/-! ## The types that are read -/

/-- A type whose reader finds a value in its forms only. -/
class Exact (α : Type) [Wire α] [Laid α] : Prop where
  takes : Takes (decode : Decoder α) fun a taken => IsForm (encode a) (layout a) taken

open Exact

section Fields

variable {α β γ : Type} [Wire α] [Wire β] [Laid α] [Laid β] [Exact α] [Exact β] {T : γ → Bytes → Prop}

theorem takes_one (mk : α → γ) (hT : ∀ a taken, IsForm (encode a) (layout a) taken → T (mk a) taken) :
    Takes (do let a ← decode; return mk a : Decoder γ) T := by
  refine takes.bind fun a => .pure fun taken ha => ?_
  rw [List.append_nil]
  exact hT a taken ha

/-- The reader of a record of two fields. -/
theorem takes_two (mk : α → β → γ)
    (hT : ∀ a b taken, IsForm (encode a ++ encode b) (layout a ++ layout b) taken → T (mk a b) taken) :
    Takes (do let a ← decode; let b ← decode; return mk a b : Decoder γ) T :=
  takes.bind fun a => takes_one (mk a) fun b _ hb _ ha => hT a b _ (ha.append hb)

end Fields

instance : Exact KeyCode where
  takes := .readVariant KeyCode.index KeyCode.ofIndex?_index (by decide +kernel)

instance : Exact Combo where
  takes := by
    show Takes (Combo.ofByte <$> readByte) _
    rw [← bind_pure_comp]
    refine Takes.readByte.bind fun b => .pure fun taken hb => ?_
    rw [List.append_nil]
    exact hb

instance : Exact Chord where
  takes := takes_two Chord.mk fun _ _ _ h => h

instance : Exact Pair where
  takes := takes_two Pair.mk fun _ _ _ h => h

instance : Exact Shortcut where
  takes := .readVariant Shortcut.ctorIdx (by intro s; cases s <;> rfl) (by decide)

instance : Exact HostOs where
  takes := .readVariant HostOs.ctorIdx (by intro os; cases os <;> rfl) (by decide)

instance : Exact Action where
  takes := by
    refine Takes.read.bind fun n => ?_
    match n with
    | 0 =>
      refine .pure fun taken hn => ?_
      rw [List.append_nil]
      exact hn
    | 1 => exact takes_one Action.key fun c _ hc _ hn => hn.append hc
    | 2 => exact takes_one Action.shortcut fun s _ hs _ hn => hn.append hs
    | 3 =>
      refine Takes.readByte.bind fun layer => ?_
      refine takes_one (Action.layerTap layer) fun c _ hc _ hlayer _ hn => ?_
      exact hn.append (hlayer.append hc)
    | _ + 4 => exact .throw _

/-! ## Any bytes -/

/-- What the reader of a type makes of any bytes. -/
structure ReadsAnyBytes (α : Type) [Wire α] [Laid α] : Prop where
  /-- A value takes bytes off the front that are read as it whatever follows. They are no fewer than those that are
  written for it, and the same ones just if their varints are minimal. -/
  value (bs rest : Bytes) (a : α) : (decode : Decoder α).run bs = .ok (a, rest) →
    ∃ taken, bs = taken ++ rest ∧ (∀ more, (decode : Decoder α).run (taken ++ more) = .ok (a, more)) ∧
      (encode a).length ≤ taken.length ∧ (cut (layout a) taken).flatMap Prod.snd = taken ∧
      (taken = encode a ↔ IsMinimal (layout a) taken)
  /-- A bad varint and a variant that there is not are found whatever follows. -/
  fault (bs : Bytes) (e : DecodeError) : (decode : Decoder α).run bs = .error e →
    e = .badVarint ∨ e = .noSuchVariant → ∀ more, (decode : Decoder α).run (bs ++ more) = .error e
  /-- Where the bytes end too early, so do fewer of them. -/
  truncated (bs : Bytes) : (decode : Decoder α).run bs = .error .unexpectedEnd →
    ∀ bs', bs' <+: bs → (decode : Decoder α).run bs' = .error .unexpectedEnd

theorem Exact.readsAnyBytes {α : Type} [Wire α] [Laid α] [Exact α] : ReadsAnyBytes α where
  value bs rest a h := by
    obtain ⟨taken, hbs, hform, hmore⟩ := Exact.takes.value h
    exact ⟨taken, hbs, hmore, hform.length_le, hform.flatMap_cut, hform.eq_iff⟩
  fault bs e h he := Exact.takes.fault h (by rintro rfl; rcases he with he | he <;> cases he)
  truncated := by
    rintro _ h bs' ⟨more, rfl⟩
    -- anything else that is found in the front would be found in all of them
    cases hrun : (decode : Decoder α).run bs' with
    | ok found =>
      obtain ⟨taken, rfl, -, hmore⟩ := Exact.takes.value hrun
      rw [List.append_assoc, hmore] at h
      cases h
    | error e =>
      by_cases he : e = .unexpectedEnd
      · rw [he]
      · rw [Exact.takes.fault hrun he more] at h
        exact h

/-- **Any bytes are read for what they are.** Whatever bytes a reader is given: a value that it finds is decided by
the bytes that it takes, and these are the ones that are written for the value just if each of their varints is
minimal; a fault of the bytes stays a fault whatever follows; and bytes that end too early do not hold a value or
another fault in their front. -/
theorem readsAnyBytes_all :
    ReadsAnyBytes KeyCode ∧ ReadsAnyBytes Combo ∧ ReadsAnyBytes Chord ∧ ReadsAnyBytes Pair ∧ ReadsAnyBytes Action ∧
      ReadsAnyBytes Shortcut ∧ ReadsAnyBytes HostOs :=
  ⟨Exact.readsAnyBytes, Exact.readsAnyBytes, Exact.readsAnyBytes, Exact.readsAnyBytes, Exact.readsAnyBytes,
    Exact.readsAnyBytes, Exact.readsAnyBytes⟩

/-- A layer tap with wasted bytes in two of its varints and something after it, bytes whose first number is too
large, and the front of a layer tap. -/
theorem readsAnyBytes_padded :
    let read := (decode : Decoder Action).run
    read [131, 0, 5, 132, 128, 0, 225, 7] = .ok (.layerTap 5 ⟨.keyA, .ofByte 225⟩, [7]) ∧
      (∃ taken, [131, 0, 5, 132, 128, 0, 225, 7] = taken ++ [7] ∧
        (∀ more, read (taken ++ more) = .ok (.layerTap 5 ⟨.keyA, .ofByte 225⟩, more)) ∧
        (encode (Action.layerTap 5 ⟨.keyA, .ofByte 225⟩)).length ≤ taken.length) ∧
      read [255, 255, 255, 255, 16] = .error .badVarint ∧
      (∀ more, read ([255, 255, 255, 255, 16] ++ more) = .error .badVarint) ∧
      read [131, 0, 5] = .error .unexpectedEnd ∧ read [131] = .error .unexpectedEnd := by
  intro read
  have hall : ReadsAnyBytes Action := readsAnyBytes_all.2.2.2.2.1
  have hvalue : read [131, 0, 5, 132, 128, 0, 225, 7] = .ok (.layerTap 5 ⟨.keyA, .ofByte 225⟩, [7]) := by rfl
  have hfault : read [255, 255, 255, 255, 16] = .error .badVarint := by rfl
  have hend : read [131, 0, 5] = .error .unexpectedEnd := by rfl
  obtain ⟨taken, hbs, hmore, hlen, -⟩ := hall.value _ _ _ hvalue
  exact ⟨hvalue, ⟨taken, hbs, hmore, hlen⟩, hfault, hall.fault _ _ hfault (.inl rfl), hend,
    hall.truncated _ hend [131] ⟨[0, 5], rfl⟩⟩

end ShiftRemap.Wire
