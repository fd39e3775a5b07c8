import FilterAlgebra.Json.Reader

namespace FilterAlgebra.Json

theorem unquote_quote (scan : Scan) (rest : List Char) :
    unquote scan ('"' :: rest) = .ok ([], rest) := by
  rw [unquote.eq_def]
  rfl

theorem unquote_plain (scan : Scan) {c : Char} (hq : c ≠ '"') (hb : c ≠ '\\') (hc : ¬ c < ' ')
    (t : List Char) :
    unquote scan (c :: t) = (unquote scan t).map fun p => (c :: p.1, p.2) := by
  rw [unquote.eq_def]
  split
  · next h => cases h
  · next h => exact absurd (List.cons.inj h).1 hq
  · next h => exact absurd (List.cons.inj h).1 hb
  · next h =>
    obtain ⟨rfl, rfl⟩ := List.cons.inj h
    rw [if_neg hc]
    cases unquote scan t <;> rfl

theorem unquote_escaped {scan : Scan} {c : Char} {t u : List Char}
    (h : escaped scan t = .ok (c, u)) :
    unquote scan ('\\' :: t) = (unquote scan u).map fun p => (c :: p.1, p.2) := by
  rw [unquote.eq_def]
  split
  · next hs => cases hs
  · next hs => exact absurd (List.cons.inj hs).1 (by decide)
  · next hs =>
    obtain rfl := (List.cons.inj hs).2
    split
    · next hf => rw [h] at hf; cases hf
    · next hu =>
      rw [h] at hu
      cases hu
      cases unquote scan u <;> rfl
  · next hb hs => exact absurd (List.cons.inj hs).1.symm hb

theorem hexUnit_control {n : Nat} (hn : n < 32) (t : List Char) :
    hexUnit ('0' :: '0' :: Nat.digitChar (n / 16) :: Nat.digitChar (n % 16) :: t) = .ok (n, t) := by
  have h : ∀ n < 32, Text.valueOf? 16 ['0', '0', Nat.digitChar (n / 16), Nat.digitChar (n % 16)] =
      some n := by decide
  rw [hexUnit, h n hn]

theorem codeEscape_control {c : Char} (hc : c.toNat < 32) (t : List Char) :
    codeEscape .keep ('0' :: '0' :: Nat.digitChar (c.toNat / 16) ::
      Nat.digitChar (c.toNat % 16) :: t) = .ok (c, t) := by
  have hfirst : isFirstHalf c.toNat = false := by simp [isFirstHalf]; omega
  have hsecond : isSecondHalf c.toNat = false := by simp [isSecondHalf]; omega
  rw [codeEscape, hexUnit_control hc]
  simp only [bind, Except.bind, hfirst, hsecond, reduceCtorEq, if_false, Bool.false_eq_true,
    Char.ofNat_toNat]

/-- The ways to spell a character in a string: by a letter of its own, by its number, or by
itself. -/
inductive SpelledInString (c : Char) : List Char → Prop where
  | letter {d : Char} (hd : ' ' ≤ d) (h : ∀ t, escaped .keep (d :: t) = .ok (c, t)) :
    SpelledInString c ['\\', d]
  | control (hc : c.toNat < 32) :
    SpelledInString c
      ['\\', 'u', '0', '0', Nat.digitChar (c.toNat / 16), Nat.digitChar (c.toNat % 16)]
  | plain (hq : c ≠ '"') (hb : c ≠ '\\') (hc : ¬ c < ' ') : SpelledInString c [c]

theorem spelledInString_escape (c : Char) : SpelledInString c (escape c) := by
  unfold escape
  -- Seven characters have a letter of their own.
  iterate 7
    split
    · next h => subst h; exact .letter (by decide) fun _ => rfl
  split
  · next hc => exact .control hc
  · next hq hb _ _ _ _ _ hc => exact .plain hq hb hc

/-- Each character has one spelling in a string, and that spelling is read as the character. -/
theorem unquote_escape (c : Char) (t : List Char) :
    unquote .keep (escape c ++ t) = (unquote .keep t).map fun p => (c :: p.1, p.2) := by
  have hspelled := spelledInString_escape c
  generalize escape c = w at hspelled ⊢
  cases hspelled with
  | letter hd h => exact unquote_escaped (h t)
  | control hc => exact unquote_escaped (codeEscape_control hc t)
  | plain hq hb hc => exact unquote_plain .keep hq hb hc t

theorem unquote_flatMap_escape (cs rest : List Char) :
    unquote .keep (cs.flatMap escape ++ '"' :: rest) = .ok (cs, rest) := by
  induction cs with
  | nil => exact unquote_quote .keep rest
  | cons c cs ih =>
    rw [List.flatMap_cons, List.append_assoc, unquote_escape, ih]
    rfl

theorem quote_append (s : String) (rest : List Char) :
    quote s ++ rest = '"' :: (s.toList.flatMap escape ++ '"' :: rest) := by
  simp [quote]

theorem escape_of_le {c : Char} (hq : c ≠ '"') (hb : c ≠ '\\') (hc : 32 ≤ c.toNat) :
    escape c = [c] := by
  have hcontrol : ¬ c < ' ' := fun h => absurd (show c.toNat < 32 from h) (by omega)
  have hne : ∀ d : Char, d.toNat < 32 → c ≠ d := fun d hd h => absurd (h ▸ hc) (by omega)
  rw [escape, if_neg hq, if_neg hb, if_neg (hne _ (by decide)), if_neg (hne _ (by decide)),
    if_neg (hne _ (by decide)), if_neg (hne _ (by decide)), if_neg (hne _ (by decide)),
    if_neg hcontrol]

theorem escape_of_isDigit {c : Char} (hc : c.isDigit) : escape c = [c] := by
  have hcode : 48 ≤ c.toNat := by
    rw [Char.isDigit, Bool.and_eq_true, decide_eq_true_eq] at hc
    exact hc.1
  refine escape_of_le ?_ ?_ (by omega)
  · rintro rfl
    cases hc
  · rintro rfl
    cases hc

def AllBlank (b : List Char) : Prop := ∀ c ∈ b, isBlank c

theorem skipBlanks_append {b : List Char} (hb : AllBlank b) (s : List Char) :
    skipBlanks (b ++ s) = skipBlanks s :=
  List.dropWhile_append_of_pos hb

theorem skipBlanks_cons {c : Char} (hc : isBlank c = false) (t : List Char) :
    skipBlanks (c :: t) = c :: t := by
  simp [skipBlanks, hc]

/-- A layout only puts blanks between the parts of a document. -/
structure Layout.Blank (l : Layout) : Prop where
  gap : ∀ depth, AllBlank (l.gap depth)
  afterColon : AllBlank l.afterColon

theorem blank_compact : Layout.compact.Blank where
  gap _ := by simp [Layout.compact, AllBlank]
  afterColon := by simp [Layout.compact, AllBlank]

theorem blank_indented : Layout.indented.Blank where
  gap depth := by simp [Layout.indented, AllBlank, isBlank]
  afterColon := by simp [Layout.indented, AllBlank, isBlank]

end FilterAlgebra.Json
