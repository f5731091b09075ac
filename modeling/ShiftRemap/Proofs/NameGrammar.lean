import Mathlib.Data.List.DropRight
import ShiftRemap.Proofs.AcceptedTable

/-!
# The grammar of key names

A text names a chord exactly if it is an atom in wrappers, with blanks around the content at every level: `Wrapped`
puts `S(` and `)` around it at one depth after the other, and `Atom` is a character that a key types, or else a name in
any case. `parse?_grammar` says so for every text. Brackets are characters that keys type, but no name has a
bracket or a blank in it: what starts with `S(` and ends with `)` is read as a wrapper or not at all, which is why a
text has one reading.
-/

namespace ShiftRemap.KeyName

open List

variable {cs body a inner : List Char} {c d : Chord} {n : Nat} {name : String} {key : KeyCode}

/-- Nothing but white space. -/
def Blank (cs : List Char) : Prop := ∀ c ∈ cs, Text.isBlank c = true

/-- The body with white space around it. -/
inductive Padded (body : List Char) : List Char → Prop
  | around {pre post : List Char} : Blank pre → Blank post → Padded body (pre ++ (body ++ post))

/-- The atom in `n` wrappers, with white space around it and around each of them. -/
inductive Wrapped (a : List Char) : Nat → List Char → Prop
  | bare {cs : List Char} : Padded a cs → Wrapped a 0 cs
  | wrap {n : Nat} {inner cs : List Char} :
      Wrapped a n inner → Padded ('S' :: '(' :: (inner ++ [')'])) cs → Wrapped a (n + 1) cs

/-- The two differ at most in the case of ASCII letters. -/
def SameLetters (cs ds : List Char) : Prop := cs.map Char.toLower = ds.map Char.toLower

/-- The text is one character, no white space, which the key types with shift or without. -/
inductive Typed : List Char → KeyCode → Bool → Prop
  | char {c : Char} {key : KeyCode} {shift : Bool} : c.toNat < 128 → Text.isBlank c = false →
      KeyCode.ofAscii c.toUInt8 = (key, shift) → key ≠ .no → Typed [c] key shift

/-- What an atom stands for. A text that is both a character and a name is a character. -/
inductive Atom (cs : List Char) : Chord → Prop
  | character {key : KeyCode} {shift : Bool} : Typed cs key shift → Atom cs ⟨key, if shift then .shift else .empty⟩
  | name {name : String} {key : KeyCode} : (name, key) ∈ table → SameLetters cs name.toList →
      (∀ k shift, ¬ Typed cs k shift) → Atom cs ⟨key, .empty⟩

/-! ## White space around a text -/

theorem trim_eq (cs : List Char) : trim cs = (cs.dropWhile Text.isBlank).rdropWhile Text.isBlank := rfl

theorem padded_trim (cs : List Char) : Padded (trim cs) cs := by
  have hleft : Blank (cs.takeWhile Text.isBlank) := fun _ hc => mem_takeWhile_imp hc
  have hright : Blank ((cs.dropWhile Text.isBlank).rtakeWhile Text.isBlank) := fun _ hc => mem_rtakeWhile_imp hc
  have hall := @Padded.around (trim cs) _ _ hleft hright
  rwa [trim_eq, rdropWhile_append_rtakeWhile, takeWhile_append_dropWhile] at hall

theorem padded_self (body : List Char) : Padded body body := by
  have hnone : Blank [] := fun _ hc => absurd hc (not_mem_nil)
  simpa using @Padded.around body _ _ hnone hnone

/-- A trimmed text does not end with white space. -/
theorem isBlank_of_getLast?_trim : ∀ x ∈ (trim cs).getLast?, Text.isBlank x = false := by
  intro x hx
  obtain ⟨hne, rfl⟩ := mem_getLast?_eq_getLast hx
  exact Bool.eq_false_iff.2 (rdropWhile_last_not _ _ hne)

/-- Trimming finds what is between the white space, if that neither starts nor ends with some. -/
theorem trim_of_padded (hne : body ≠ []) (hfirst : Text.isBlank (body.head hne) = false)
    (hlast : Text.isBlank (body.getLast hne) = false) (h : Padded body cs) : trim cs = body := by
  obtain ⟨hpre, hpost⟩ := h
  rename_i pre post
  have hleft : (pre ++ (body ++ post)).dropWhile Text.isBlank = body ++ post := by
    rw [dropWhile_append_of_pos hpre]
    obtain ⟨x, xs, rfl⟩ := exists_cons_of_ne_nil hne
    exact dropWhile_cons_of_neg (Bool.eq_false_iff.1 hfirst)
  have hright : (post.reverse ++ body.reverse).dropWhile Text.isBlank = body.reverse := by
    rw [dropWhile_append_of_pos fun c hc => hpost c (mem_reverse.1 hc)]
    have hself : body.rdropWhile Text.isBlank = body := rdropWhile_eq_self_iff.2 fun _ => Bool.eq_false_iff.1 hlast
    exact reverse_eq_iff.1 hself
  rw [trim, hleft, reverse_append, hright, reverse_reverse]

/-! ## Wrappers -/

theorem unwrap?_eq_some_iff : unwrap? cs = some inner ↔ cs = 'S' :: '(' :: (inner ++ [')']) := by
  constructor
  · intro h
    unfold unwrap? at h
    split at h
    · rename_i rest
      split at h
      · rename_i hlast
        cases h
        rw [dropLast_append_getLast? ')' hlast]
      · cases h
    · cases h
  · rintro rfl
    simp [unwrap?]

theorem unwrap?_eq_none (h : ∀ inner, cs ≠ 'S' :: '(' :: (inner ++ [')'])) : unwrap? cs = none :=
  Option.eq_none_iff_forall_ne_some.2 fun inner hu => h inner (unwrap?_eq_some_iff.1 hu)

theorem trim_wrapper (h : Padded ('S' :: '(' :: (inner ++ [')'])) cs) : trim cs = 'S' :: '(' :: (inner ++ [')']) := by
  have hlast : ('S' :: '(' :: (inner ++ [')'])).getLast (cons_ne_nil _ _) = ')' := by simp
  refine trim_of_padded (cons_ne_nil _ _) ?_ ?_ h
  · rfl
  · rw [hlast]
    rfl

/-! ## Names -/

theorem lookup?_of_mem (h : (name, key) ∈ table) : lookup? name = some key := by
  have hall : (table.all fun e => lookup? e.1 == some e.2) = true := by decide +kernel
  exact beq_iff_eq.1 (all_eq_true.1 hall _ h)

/-- No capital letter, no white space and no opening bracket. -/
def isNameLetter (x : Char) : Bool := x.toLower == x && !Text.isBlank x && x != '('

theorem isNameLetter_iff {x : Char} :
    isNameLetter x = true ↔ x.toLower = x ∧ Text.isBlank x = false ∧ x ≠ '(' := by
  simp [isNameLetter, and_assoc]

/-- Names are not empty, and they are written in lower case without blanks and brackets. -/
theorem letters_of_mem (h : (name, key) ∈ table) :
    name.toList ≠ [] ∧ ∀ x ∈ name.toList, x.toLower = x ∧ Text.isBlank x = false ∧ x ≠ '(' := by
  have hall : (table.all fun e => !e.1.toList.isEmpty && e.1.toList.all isNameLetter) = true := by decide +kernel
  have hname := all_eq_true.1 hall _ h
  rw [Bool.and_eq_true, all_eq_true] at hname
  exact ⟨by simpa using hname.1, fun x hx => isNameLetter_iff.1 (hname.2 x hx)⟩

theorem map_toLower_of_mem (h : (name, key) ∈ table) : name.toList.map Char.toLower = name.toList :=
  (map_congr_left fun x hx => ((letters_of_mem h).2 x hx).1).trans (map_id _)

/-- A name in any case is found under the name in lower case. -/
theorem ofList_toLower (hm : (name, key) ∈ table) (h : SameLetters a name.toList) :
    String.ofList (a.map Char.toLower) = name := by
  rw [SameLetters, map_toLower_of_mem hm] at h
  rw [h, String.ofList_toList]

/-- Case is a matter of letters, and no letter is white space. -/
theorem toLower_of_isBlank {x : Char} (h : Text.isBlank x = true) : x.toLower = x := by
  unfold Char.toLower
  split
  · rename_i hupper
    have hlow : 65 ≤ x.toNat := UInt32.le_iff_toNat_le.1 hupper.1
    have hhigh : x.toNat ≤ 90 := UInt32.le_iff_toNat_le.1 hupper.2
    simp only [Text.isBlank, Bool.or_eq_true, Bool.and_eq_true, decide_eq_true_eq, beq_iff_eq] at h
    omega
  · rfl

/-- A name in any case has no white space and no opening bracket in it either. -/
theorem letters_of_sameLetters (hm : (name, key) ∈ table) (h : SameLetters a name.toList) :
    a ≠ [] ∧ ∀ x ∈ a, Text.isBlank x = false ∧ x ≠ '(' := by
  obtain ⟨hne, hall⟩ := letters_of_mem hm
  have hletters : a.map Char.toLower = name.toList := h.trans (map_toLower_of_mem hm)
  refine ⟨fun hnil => hne (by rw [← hletters, hnil]; rfl), fun x hx => ?_⟩
  have hx' : x.toLower ∈ name.toList := hletters ▸ mem_map_of_mem hx
  constructor
  · rw [Bool.eq_false_iff]
    intro hb
    rw [toLower_of_isBlank hb] at hx'
    exact Bool.false_ne_true ((hall x hx').2.1.symm.trans hb)
  · rintro rfl
    exact (hall _ hx').2.2 rfl

/-! ## Atoms -/

theorem ofAscii_eq (b : UInt8) :
    Chord.ofAscii b = ⟨(KeyCode.ofAscii b).1, if (KeyCode.ofAscii b).2 then .shift else .empty⟩ := by
  unfold Chord.ofAscii
  split
  · rename_i h
    rw [h]
    rfl
  · rename_i h
    rw [h]
    rfl

theorem Typed.typed? {shift : Bool} (h : Typed cs key shift) :
    typed? cs = some ⟨key, if shift then .shift else .empty⟩ := by
  obtain ⟨hascii, _, hkey, hno⟩ := h
  refine typed?_eq_some_iff.2 ⟨_, rfl, hascii, ?_, hno⟩
  rw [ofAscii_eq, hkey]

/-- What is read as a character is one, unless it is white space. -/
theorem typed_of_typed? (hb : ∀ x ∈ cs.getLast?, Text.isBlank x = false) (h : typed? cs = some c) :
    ∃ key shift, Typed cs key shift ∧ c = ⟨key, if shift then .shift else .empty⟩ := by
  obtain ⟨x, rfl, hascii, rfl, hno⟩ := typed?_eq_some_iff.1 h
  rw [ofAscii_eq] at hno ⊢
  exact ⟨_, _, .char hascii (hb x rfl) rfl hno, rfl⟩

theorem atom_of_atom? (hb : ∀ x ∈ cs.getLast?, Text.isBlank x = false) (h : atom? cs = some c) : Atom cs c := by
  rcases atom?_eq_some_iff.1 h with ht | ⟨ht, key, hkey, rfl⟩
  · obtain ⟨key, shift, htyped, rfl⟩ := typed_of_typed? hb ht
    exact .character htyped
  · have hm := mem_of_lookup? hkey
    refine .name hm ?_ fun k shift htyped => ?_
    · have hlower := map_toLower_of_mem hm
      rw [SameLetters, hlower, String.toList_ofList]
    · rw [htyped.typed?] at ht
      cases ht

/-- An atom is read as what it stands for. -/
theorem Atom.atom? (h : Atom a d) : atom? a = some d := by
  rw [atom?_eq_some_iff]
  cases h with
  | character ht => exact .inl ht.typed?
  | name hm hs hno =>
    refine .inr ⟨?_, _, (ofList_toLower hm hs).symm ▸ lookup?_of_mem hm, rfl⟩
    rw [Option.eq_none_iff_forall_ne_some]
    intro c hc
    have hb : ∀ x ∈ a.getLast?, Text.isBlank x = false := fun x hx =>
      ((letters_of_sameLetters hm hs).2 x (mem_of_getLast? hx)).1
    obtain ⟨k, shift, ht, _⟩ := typed_of_typed? hb hc
    exact hno k shift ht

/-- Neither end of an atom is white space, and it is no wrapper. -/
theorem Atom.bare (h : Atom a d) (hp : Padded a cs) : trim cs = a ∧ unwrap? a = none := by
  cases h with
  | character ht =>
    obtain ⟨_, hb, _, _⟩ := ht
    exact ⟨trim_of_padded (cons_ne_nil _ _) hb hb hp, unwrap?_eq_none fun inner hu => by simp at hu⟩
  | name hm hs hno =>
    obtain ⟨hne, hall⟩ := letters_of_sameLetters hm hs
    refine ⟨trim_of_padded hne (hall _ (head_mem hne)).1 (hall _ (getLast_mem hne)).1 hp, unwrap?_eq_none ?_⟩
    rintro inner rfl
    exact (hall '(' (mem_cons_of_mem _ (mem_cons_self ..))).2 rfl

/-! ## Reading a text -/

/-- An atom in wrappers is read, and every wrapper attaches shift. -/
theorem Wrapped.parseChars? (h : Wrapped a n cs) (ha : Atom a d) :
    ∃ c, parseChars? cs = some c ∧ c.key = d.key ∧ c.mods = if n = 0 then d.mods else .shift := by
  induction h with
  | bare hp =>
    obtain ⟨htrim, hu⟩ := ha.bare hp
    rw [← htrim] at hu
    refine ⟨d, ?_, rfl, rfl⟩
    rw [parseChars?_of_not_unwrap? hu, htrim, ha.atom?]
  | wrap _ hp ih =>
    obtain ⟨c, hc, hkey, _⟩ := ih
    have hu := unwrap?_eq_some_iff.2 (trim_wrapper hp)
    refine ⟨c.withShift, ?_, hkey, ?_⟩
    · rw [parseChars?_of_unwrap? hu, hc]
      rfl
    · rw [if_neg (Nat.succ_ne_zero _)]
      exact mods_withShift (mods_of_parseChars? hc)

/-- What is read is an atom in wrappers: by induction on the recursion, which peels off one wrapper at a time. -/
theorem wrapped_of_parseChars? (h : parseChars? cs = some c) :
    ∃ n a d, Wrapped a n cs ∧ Atom a d ∧ c.key = d.key ∧ c.mods = if n = 0 then d.mods else .shift := by
  have hpad := padded_trim cs
  induction cs using parseChars?.induct generalizing c with
  | case1 cs inner hu ih =>
    rw [parseChars?_of_unwrap? hu] at h
    obtain ⟨c', hc', rfl⟩ := Option.map_eq_some_iff.1 h
    obtain ⟨n, a, d, hw, ha, hkey, _⟩ := ih hc' (padded_trim inner)
    rw [unwrap?_eq_some_iff.1 hu] at hpad
    exact ⟨n + 1, a, d, .wrap hw hpad, ha, hkey, mods_withShift (mods_of_parseChars? hc')⟩
  | case2 cs hu =>
    rw [parseChars?_of_not_unwrap? hu] at h
    exact ⟨0, trim cs, c, .bare hpad, atom_of_atom? isBlank_of_getLast?_trim h, rfl, rfl⟩

/-- **Key names are their grammar.** A text is read exactly if it is an atom in some number of wrappers, with white
space around the content at every level, and then it is the key of the atom: with shift if there is a wrapper or if the
atom is a character typed with shift, and alone otherwise. So a wrapper around any text attaches shift to what the text
stands for, no text stands for the absence of a key, and none for a modifier other than shift. -/
theorem parse?_grammar :
    (∀ s c, parse? s = some c ↔
      ∃ n a d, Wrapped a n s.toList ∧ Atom a d ∧ c.key = d.key ∧ c.mods = if n = 0 then d.mods else .shift) ∧
    (∀ s, parse? ("S(" ++ s ++ ")") = (parse? s).map Chord.withShift) ∧
    ∀ s c, parse? s = some c → c.key ≠ .no ∧ (c.mods = .empty ∨ c.mods = .shift) := by
  refine ⟨fun s c => ⟨wrapped_of_parseChars?, ?_⟩, fun s => ?_, fun s c h => ?_⟩
  · rintro ⟨n, a, d, hw, ha, hkey, hmods⟩
    obtain ⟨c', hc', hkey', hmods'⟩ := hw.parseChars? ha
    cases c
    cases c'
    cases hkey'.trans hkey.symm
    cases hmods'.trans hmods.symm
    exact hc'
  · have hlist : ("S(" ++ s ++ ")").toList = 'S' :: '(' :: (s.toList ++ [')']) := by
      rw [String.toList_append, String.toList_append]
      rfl
    have hu := unwrap?_eq_some_iff.2 (trim_wrapper (padded_self ('S' :: '(' :: (s.toList ++ [')']))))
    rw [parse?, hlist, parseChars?_of_unwrap? hu]
    rfl
  · exact ⟨ne_no_of_parseChars? h, mods_of_parseChars? h⟩

/-- The bracket in two wrappers. What is left of a wrapper without the bracket inside is not read. -/
theorem parse?_grammar_bracket :
    Wrapped ['('] 2 " S( S(() )".toList ∧ Atom ['('] (.shifted .digit9) ∧
      parse? " S( S(() )" = some (.shifted .digit9) ∧ KeyCode.digit9 ≠ .no ∧ parse? "S()" = none := by
  have hbare : Wrapped ['('] 0 ['('] := .bare (padded_self _)
  have hblank : Blank [' '] := by simp [Blank, show Text.isBlank ' ' = true from rfl]
  have hnone : Blank [] := by simp [Blank]
  have hinner : Wrapped ['('] 1 [' ', 'S', '(', '(', ')', ' '] := .wrap hbare (.around hblank hblank)
  have houter : Wrapped ['('] 2 " S( S(() )".toList := .wrap hinner (.around hblank hnone)
  have hatom : Atom ['('] (.shifted .digit9) := .character (.char (by decide) rfl rfl (by decide))
  obtain ⟨hreads, hwraps, hkeys⟩ := parse?_grammar
  have hread := (hreads _ (.shifted .digit9)).2 ⟨2, _, _, houter, hatom, rfl, rfl⟩
  have hempty : parse? "" = none := by decide +kernel
  exact ⟨houter, hatom, hread, (hkeys _ _ hread).1, (hwraps "").trans (by rw [hempty]; rfl)⟩

end ShiftRemap.KeyName
