import Mathlib.Data.Nat.Notation
import Mathlib.Algebra.Group.Nat.Defs
import FilterAlgebra.Json.Scanner

namespace FilterAlgebra.Json

/-- What would make a numeral before it a longer one. -/
def carriesOn (c : Char) : Bool := c.isDigit || c == '.' || c == 'e' || c == 'E'

/-- A text that carries no numeral on. -/
def Stops (rest : List Char) : Prop := ∀ c ∈ rest.head?, carriesOn c = false

theorem stops_nil : Stops [] := by simp [Stops]

def AllDigits (ds : List Char) : Prop := ds ≠ [] ∧ ∀ c ∈ ds, c.isDigit

namespace Numeral

/-- No zero stands before the whole part, and every part that is there has digits. -/
structure WellFormed (n : Numeral) : Prop where
  whole : AllDigits n.whole
  noLeadingZero : n.whole.head? = some '0' → n.whole = ['0']
  fraction : ∀ ds ∈ n.fraction, AllDigits ds
  power : ∀ p ∈ n.power, AllDigits p.2

/-- At most 20 digits before the point, and at most `k` in the power. -/
structure Bounded (k : ℕ) (n : Numeral) : Prop where
  whole : n.whole.length ≤ 20
  power : ∀ p ∈ n.power, p.2.length ≤ k

def sign (negative : Bool) : List Char := if negative then ['-'] else []

def spellFraction : Option (List Char) → List Char
  | some ds => '.' :: ds
  | none => []

def spellPower : Option (Bool × List Char) → List Char
  | some (negative, ds) => 'e' :: (if negative then '-' else '+') :: ds
  | none => []

/-- The text of a numeral, with a sign in every power. -/
def spell (n : Numeral) : List Char :=
  sign n.negative ++ n.whole ++ spellFraction n.fraction ++ spellPower n.power

end Numeral

theorem not_isDigit_of_stops {rest : List Char} (h : Stops rest) :
    ∀ c ∈ rest.head?, c.isDigit = false := by
  intro c hc
  have := h c hc
  simp only [carriesOn, Bool.or_eq_false_iff] at this
  exact this.1.1.1

theorem digits_append (scan : Scan) {ds rest : List Char} (hds : AllDigits ds)
    (hrest : ∀ c ∈ rest.head?, c.isDigit = false) : digits scan (ds ++ rest) = .ok (ds, rest) := by
  obtain ⟨c, cs, rfl⟩ := List.exists_cons_of_ne_nil hds.1
  have htake : rest.takeWhile Char.isDigit = [] := by cases rest <;> simp_all
  have hdrop : rest.dropWhile Char.isDigit = rest := by cases rest <;> simp_all
  rw [List.cons_append, digits, if_pos (hds.2 c (by simp)), ← List.cons_append,
    List.takeWhile_append_of_pos hds.2, List.dropWhile_append_of_pos hds.2, htake, hdrop,
    List.append_nil]

theorem wholePart_append {scan : Scan} {ds rest : List Char} (hds : AllDigits ds)
    (hzero : ds.head? = some '0' → ds = ['0']) (hrest : ∀ c ∈ rest.head?, c.isDigit = false) :
    wholePart scan (ds ++ rest) = .ok (ds, rest) := by
  obtain ⟨c, cs, rfl⟩ := List.exists_cons_of_ne_nil hds.1
  by_cases hc : c = '0'
  · subst hc
    obtain rfl : cs = [] := by simpa using hzero rfl
    cases rest with
    | nil => rfl
    | cons d t => simp [wholePart, hrest d rfl]
  · rw [← digits_append scan hds hrest, List.cons_append, wholePart]
    intro t h
    exact hc (List.cons.inj h).1

theorem fractionPart_append {scan : Scan} {fraction : Option (List Char)} {rest : List Char}
    (hf : ∀ ds ∈ fraction, AllDigits ds) (hrest : ∀ c ∈ rest.head?, c.isDigit = false)
    (hpoint : ∀ c ∈ rest.head?, c ≠ '.') :
    fractionPart scan (Numeral.spellFraction fraction ++ rest) = .ok (fraction, rest) := by
  cases fraction with
  | some ds =>
    rw [Numeral.spellFraction, List.cons_append, fractionPart, digits_append scan (hf ds rfl) hrest]
    rfl
  | none =>
    rw [Numeral.spellFraction, List.nil_append, fractionPart]
    rintro t rfl
    exact hpoint '.' rfl rfl

theorem powerPart_sign (scan : Scan) (negative : Bool) (s : List Char) :
    powerPart scan ('e' :: (if negative then '-' else '+') :: s) =
      (digits scan s).map fun p => (some (negative, p.1), p.2) := by
  cases hd : digits scan s <;> cases negative <;>
    simp [powerPart, hd, Except.map, bind, Except.bind, pure, Except.pure]

theorem powerPart_append {scan : Scan} {power : Option (Bool × List Char)} {rest : List Char}
    (hp : ∀ p ∈ power, AllDigits p.2) (hrest : Stops rest) :
    powerPart scan (Numeral.spellPower power ++ rest) = .ok (power, rest) := by
  cases power with
  | some p =>
    obtain ⟨negative, ds⟩ := p
    have hd := digits_append scan (hp _ rfl) (not_isDigit_of_stops hrest)
    rw [Numeral.spellPower, List.cons_append, List.cons_append, powerPart_sign, hd]
    rfl
  | none =>
    cases rest with
    | nil => rfl
    | cons c t =>
      have hc := hrest c rfl
      simp only [carriesOn, Bool.or_eq_false_iff, beq_eq_false_iff_ne] at hc
      simp [Numeral.spellPower, powerPart, hc.1.2, hc.2]

/-- What stands behind the fraction does not lengthen it. -/
theorem head_spellPower {power : Option (Bool × List Char)} {rest : List Char} (hrest : Stops rest)
    (c : Char) (hc : c ∈ (Numeral.spellPower power ++ rest).head?) :
    c.isDigit = false ∧ c ≠ '.' := by
  cases power with
  | some p =>
    obtain rfl : 'e' = c := by simpa [Numeral.spellPower] using hc
    decide
  | none =>
    have := hrest c hc
    simp only [carriesOn, Bool.or_eq_false_iff, beq_eq_false_iff_ne] at this
    exact this.1.1

theorem head_spellFraction {fraction : Option (List Char)} {rest : List Char}
    (hrest : ∀ c ∈ rest.head?, c.isDigit = false) (c : Char)
    (hc : c ∈ (Numeral.spellFraction fraction ++ rest).head?) : c.isDigit = false := by
  cases fraction with
  | some ds =>
    obtain rfl : '.' = c := by simpa [Numeral.spellFraction] using hc
    decide
  | none => exact hrest c hc

theorem numeral_whole (scan : Scan) (negative : Bool) {ds rest : List Char} (hds : AllDigits ds)
    (hzero : ds.head? = some '0' → ds = ['0']) (hrest : ∀ c ∈ rest.head?, c.isDigit = false) :
    numeral scan (Numeral.sign negative ++ (ds ++ rest)) = do
      let (fraction, s) ← fractionPart scan rest
      let (power, s) ← powerPart scan s
      return (⟨negative, ds, fraction, power⟩, s) := by
  have hsign : numeral scan (Numeral.sign negative ++ (ds ++ rest)) =
      unsigned scan negative (ds ++ rest) := by
    cases negative with
    | true => rfl
    | false =>
      obtain ⟨c, cs, rfl⟩ := List.exists_cons_of_ne_nil hds.1
      rw [Numeral.sign, if_neg (by decide), List.nil_append, List.cons_append, numeral]
      rintro t h
      have hc : c.isDigit := hds.2 c (by simp)
      rw [(List.cons.inj h).1] at hc
      exact absurd hc (by decide)
  rw [hsign, unsigned, wholePart_append hds hzero hrest]
  rfl

theorem numeral_fraction (scan : Scan) (negative : Bool) {ds rest : List Char}
    {fraction : Option (List Char)} (hds : AllDigits ds) (hzero : ds.head? = some '0' → ds = ['0'])
    (hf : ∀ ds ∈ fraction, AllDigits ds) (hrest : ∀ c ∈ rest.head?, c.isDigit = false ∧ c ≠ '.') :
    numeral scan (Numeral.sign negative ++ (ds ++ (Numeral.spellFraction fraction ++ rest))) =
      (powerPart scan rest).map fun p => (⟨negative, ds, fraction, p.1⟩, p.2) := by
  have hdigit : ∀ c ∈ rest.head?, c.isDigit = false := fun c hc => (hrest c hc).1
  rw [numeral_whole scan negative hds hzero (head_spellFraction hdigit),
    fractionPart_append hf hdigit fun c hc => (hrest c hc).2]
  dsimp only [bind, Except.bind]
  cases powerPart scan rest <;> rfl

theorem numeral_spell {scan : Scan} {n : Numeral} (hn : n.WellFormed) {rest : List Char}
    (hrest : Stops rest) : numeral scan (n.spell ++ rest) = .ok (n, rest) := by
  simp only [Numeral.spell, List.append_assoc]
  rw [numeral_fraction scan n.negative hn.whole hn.noLeadingZero hn.fraction
      (head_spellPower hrest),
    powerPart_append hn.power hrest]
  rfl

theorem spell_inj {n m : Numeral} (hn : n.WellFormed) (hm : m.WellFormed)
    (h : n.spell = m.spell) : n = m := by
  have hread : numeral .keep (n.spell ++ []) = .ok (n, []) := numeral_spell hn stops_nil
  rw [h, numeral_spell hm stops_nil] at hread
  cases hread
  rfl

/-- The head of a numeral tells it from every other kind of value. -/
theorem spell_eq_cons {n : Numeral} (hn : n.WellFormed) :
    ∃ c t, n.spell = c :: t ∧ startsNumeral c := by
  obtain ⟨c, cs, hw⟩ := List.exists_cons_of_ne_nil hn.whole.1
  cases hneg : n.negative with
  | true => exact ⟨'-', _, by simp [Numeral.spell, Numeral.sign, hneg]; rfl, by decide⟩
  | false =>
    refine ⟨c, _, by simp [Numeral.spell, Numeral.sign, hneg, hw]; rfl, ?_⟩
    simp [startsNumeral, hn.whole.2 c (by simp [hw])]

theorem number_spell {n : Numeral} (hn : n.WellFormed) {j : Json} (hj : n.toJson = .ok j)
    {rest : List Char} (hrest : Stops rest) : number .keep (n.spell ++ rest) = .ok (j, rest) := by
  rw [number, numeral_spell hn hrest]
  dsimp only [bind, Except.bind]
  rw [hj]
  rfl

theorem allDigits_toDigits (n : ℕ) : AllDigits (Nat.toDigits 10 n) :=
  ⟨Nat.toDigits_ne_nil, fun _ hc => Nat.isDigit_of_mem_toDigits (by decide) (by decide) hc⟩

theorem head?_toDigits {n : ℕ} (hn : 0 < n) : (Nat.toDigits 10 n).head? ≠ some '0' := by
  induction n using Nat.strongRecOn with
  | ind n ih =>
    rw [Nat.toDigits_eq_if (by decide)]
    split
    · next h =>
      have hdigit : ∀ d < 10, 0 < d → d.digitChar ≠ '0' := by decide
      simpa using hdigit n h hn
    · next h =>
      have hq := ih (n / 10) (by omega) (by omega)
      obtain ⟨c, cs, hc⟩ := List.exists_cons_of_ne_nil (Nat.toDigits_ne_nil (n := n / 10) (b := 10))
      rw [hc] at hq ⊢
      exact hq

theorem toDigits_noLeadingZero (n : ℕ) (h : (Nat.toDigits 10 n).head? = some '0') :
    Nat.toDigits 10 n = ['0'] := by
  rcases Nat.eq_zero_or_pos n with rfl | hn
  · rfl
  · exact absurd h (head?_toDigits hn)

theorem value_toDigits (n : ℕ) : Numeral.value (Nat.toDigits 10 n) = n :=
  Nat.ofDigitChars_ten_toDigits

theorem value_append (ds es : List Char) :
    Numeral.value (ds ++ es) = Numeral.value ds * 10 ^ es.length + Numeral.value es := by
  rw [Numeral.value, Nat.ofDigitChars_append, Nat.ofDigitChars_eq_ofDigitChars_zero, Nat.mul_comm]
  rfl

theorem value_replicate_zero (k : ℕ) : Numeral.value (List.replicate k '0') = 0 := by
  simp [Numeral.value]

def Numeral.ofInt (n : ℤ) : Numeral := ⟨n < 0, Nat.toDigits 10 n.natAbs, none, none⟩

theorem wellFormed_ofInt (n : ℤ) : (Numeral.ofInt n).WellFormed where
  whole := allDigits_toDigits _
  noLeadingZero := toDigits_noLeadingZero _
  fraction := by simp [Numeral.ofInt]
  power := by simp [Numeral.ofInt]

theorem spell_ofInt (n : ℤ) : (Numeral.ofInt n).spell = integer n := by
  unfold Numeral.ofInt Numeral.spell integer
  split <;> simp [Numeral.sign, Numeral.spellFraction, Numeral.spellPower, *]

/-- Integers that have 64 bits, with or without a sign. -/
def Fits (n : ℤ) : Prop := -9223372036854775808 ≤ n ∧ n < 18446744073709551616

theorem bounded_ofInt {n : ℤ} (hn : Fits n) (k : ℕ) : (Numeral.ofInt n).Bounded k where
  whole := by
    obtain ⟨hlow, hhigh⟩ := hn
    exact (Nat.length_toDigits_le_iff (by decide) (by decide)).2 (by omega)
  power := by simp [Numeral.ofInt]

theorem toJson_ofInt {n : ℤ} (hn : Fits n) : (Numeral.ofInt n).toJson = .ok (.int n) := by
  obtain ⟨hlow, hhigh⟩ := hn
  have hi : (Numeral.ofInt n).integer? = some n := by
    simp only [Numeral.integer?, Numeral.ofInt, value_toDigits, Option.isSome_none, Bool.or_self,
      Bool.false_eq_true, if_false, decide_eq_true_eq]
    split
    · next h =>
      rw [if_pos (by omega)]
      congr 1
      omega
    · next h =>
      rw [if_pos (by omega)]
      congr 1
      omega
  rw [Numeral.toJson, hi]

end FilterAlgebra.Json
