import FilterAlgebra.Proofs.Numeral
import FilterAlgebra.Proofs.Shortest

namespace FilterAlgebra

/-- The decimal number that is spelled, sign apart. -/
def Json.Numeral.toDecimal (n : Numeral) : Decimal :=
  ⟨value (n.whole ++ n.fraction.getD []), n.exponent - (n.fraction.getD []).length⟩

namespace Decimal
open Json (Numeral AllDigits)

/-- A short numeral that spells a decimal number, and that no integer is spelled by. -/
structure SpelledBy (d : Decimal) (n : Numeral) : Prop where
  whole : n.whole.length ≤ 16
  power : ∀ p ∈ n.power, p.2.length ≤ 3
  wellFormed : n.WellFormed
  pointed : n.spell = Numeral.sign n.negative ++ d.pointed
  noInteger : n.fraction.isSome || n.power.isSome
  value : ∃ k, n.toDecimal = d.shift k

theorem shift_zero (d : Decimal) : d.shift 0 = d := by
  simp [shift]

theorem length_digitChars_pos (d : Decimal) : 0 < d.digitChars.length := Nat.length_toDigits_pos

theorem value_digitChars (d : Decimal) : Numeral.value d.digitChars = d.digits :=
  Json.value_toDigits _

theorem isDigit_digitChars (d : Decimal) : ∀ c ∈ d.digitChars, c.isDigit :=
  (Json.allDigits_toDigits _).2

/-- The digits, cut by a point. -/
theorem exists_spelledBy_inside (negative : Bool) {d : Decimal} (hneg : d.exponent < 0)
    (hlead : -5 ≤ d.leading ∧ d.leading ≤ 15) (hin : (-d.exponent).toNat < d.digitChars.length) :
    ∃ n : Numeral, n.negative = negative ∧ d.SpelledBy n := by
  have hplaces : (-d.exponent).toNat ≠ 0 := by omega
  refine ⟨⟨negative, d.digitChars.take (d.digitChars.length - (-d.exponent).toNat),
    some (d.digitChars.drop (d.digitChars.length - (-d.exponent).toNat)), none⟩, rfl,
    ⟨?_, by simp, ⟨⟨?_, ?_⟩, ?_, ?_, ?_⟩, ?_, rfl, 0, ?_⟩⟩
  · have hl : d.leading = d.digitChars.length - 1 + d.exponent := rfl
    rw [List.length_take]
    omega
  · rw [ne_eq, List.take_eq_nil_iff, not_or]
    exact ⟨by omega, List.ne_nil_of_length_pos d.length_digitChars_pos⟩
  · intro c hc
    exact d.isDigit_digitChars c (List.mem_of_mem_take hc)
  · -- Digits that begin with a zero are a lone zero, and that has no two parts.
    intro h
    rw [List.head?_take, if_neg (by omega)] at h
    have h0 := congrArg List.length (Json.toDigits_noLeadingZero _ h)
    change d.digitChars.length = 1 at h0
    omega
  · rintro _ ⟨⟩
    constructor
    · intro h
      have := List.drop_eq_nil_iff.1 h
      omega
    · intro c hc
      exact d.isDigit_digitChars c (List.mem_of_mem_drop hc)
  · simp
  · rw [pointed, if_pos hlead, if_pos hneg, plain]
    simp only [if_neg hplaces, if_pos hin]
    simp [Numeral.spell, Numeral.spellFraction, Numeral.spellPower]
  · rw [shift_zero]
    simp only [Numeral.toDecimal, Numeral.exponent, Option.getD_some, List.take_append_drop,
      value_digitChars, List.length_drop]
    obtain ⟨digits, exponent⟩ := d
    simp only [mk.injEq, true_and]
    dsimp only at hneg hin
    omega

/-- A zero and a point before the digits, zeros between. -/
theorem exists_spelledBy_before (negative : Bool) {d : Decimal} (hneg : d.exponent < 0)
    (hlead : -5 ≤ d.leading ∧ d.leading ≤ 15) (hin : ¬ (-d.exponent).toNat < d.digitChars.length) :
    ∃ n : Numeral, n.negative = negative ∧ d.SpelledBy n := by
  have hplaces : (-d.exponent).toNat ≠ 0 := by omega
  refine ⟨⟨negative, ['0'], some (List.replicate ((-d.exponent).toNat - d.digitChars.length) '0' ++
    d.digitChars), none⟩, rfl,
    ⟨by simp, by simp, ⟨⟨by simp, by simp⟩, fun _ => rfl, ?_, ?_⟩, ?_, rfl, 0, ?_⟩⟩
  · rintro _ ⟨⟩
    refine ⟨by simp [digitChars], ?_⟩
    intro c hc
    rcases List.mem_append.1 hc with hc | hc
    · rw [List.eq_of_mem_replicate hc]
      rfl
    · exact d.isDigit_digitChars c hc
  · simp
  · rw [pointed, if_pos hlead, if_pos hneg, plain]
    simp only [if_neg hplaces, if_neg hin]
    simp [Numeral.spell, Numeral.spellFraction, Numeral.spellPower]
  · rw [shift_zero]
    -- The zeros have no value of their own, but they count as places behind the point.
    simp only [Numeral.toDecimal, Numeral.exponent, Option.getD_some, List.length_append,
      List.length_replicate]
    rw [Json.value_append, Json.value_append, Json.value_replicate_zero, value_digitChars]
    have hzero : Numeral.value ['0'] = 0 := rfl
    rw [hzero]
    obtain ⟨digits, exponent⟩ := d
    simp only [mk.injEq]
    dsimp only at hneg hin
    omega

/-- Digits, zeros, and a point with nothing behind it but a zero. -/
theorem exists_spelledBy_behind (negative : Bool) {d : Decimal} (hneg : ¬ d.exponent < 0)
    (hlead : -5 ≤ d.leading ∧ d.leading ≤ 15) (hclean : d.digits = 0 → d.exponent = 0) :
    ∃ n : Numeral, n.negative = negative ∧ d.SpelledBy n := by
  have hplaces : (-d.exponent).toNat = 0 := by omega
  refine ⟨⟨negative, d.digitChars ++ List.replicate d.exponent.toNat '0', some ['0'], none⟩, rfl,
    ⟨?_, by simp, ⟨⟨by simp [digitChars], ?_⟩, ?_, ?_, ?_⟩, ?_, rfl, d.exponent.toNat + 1, ?_⟩⟩
  · have hl : d.leading = d.digitChars.length - 1 + d.exponent := rfl
    rw [List.length_append, List.length_replicate]
    omega
  · intro c hc
    rcases List.mem_append.1 hc with hc | hc
    · exact d.isDigit_digitChars c hc
    · rw [List.eq_of_mem_replicate hc]
      rfl
  · intro h
    have hd : d.digitChars = ['0'] := by
      change (Nat.toDigits 10 d.digits ++ List.replicate d.exponent.toNat '0').head? = _ at h
      rw [List.head?_append_of_ne_nil _ Nat.toDigits_ne_nil] at h
      exact Json.toDigits_noLeadingZero _ h
    -- A zero is written with no zeros after it.
    have hzero : d.digits = 0 := by rw [← value_digitChars, hd]; rfl
    rw [hd, hclean hzero]
    rfl
  · rintro _ ⟨⟩
    exact ⟨by simp, by simp⟩
  · simp
  · rw [pointed, if_pos hlead, if_neg hneg, plain]
    simp only [if_pos hplaces]
    simp [Numeral.spell, Numeral.spellFraction, Numeral.spellPower]
  · simp only [Numeral.toDecimal, Numeral.exponent, Option.getD_some, shift, mk.injEq]
    rw [Json.value_append, Json.value_append, Json.value_replicate_zero, value_digitChars,
      List.length_replicate]
    refine ⟨?_, ?_⟩
    · have hzero : Numeral.value ['0'] = 0 := rfl
      rw [hzero, List.length_singleton, pow_one, Nat.pow_succ, Nat.add_zero, Nat.add_zero,
        Nat.mul_assoc]
    · simp only [List.length_singleton]
      omega

def behindFirst (ds : List Char) : Option (List Char) :=
  if ds.length < 2 then none else some (ds.drop 1)

theorem take_append_behindFirst (ds : List Char) : ds.take 1 ++ (behindFirst ds).getD [] = ds := by
  rw [behindFirst]
  split
  · rw [Option.getD_none, List.append_nil, List.take_of_length_le (by omega)]
  · rw [Option.getD_some, List.take_append_drop]

theorem length_behindFirst (ds : List Char) :
    ((behindFirst ds).getD []).length = ds.length - 1 := by
  rw [behindFirst]
  split
  · rw [Option.getD_none, List.length_nil]
    omega
  · rw [Option.getD_some, List.length_drop]

theorem spellFraction_behindFirst (ds : List Char) :
    Numeral.spellFraction (behindFirst ds) = if ds.length < 2 then [] else '.' :: ds.drop 1 := by
  rw [behindFirst]
  split <;> rfl

theorem allDigits_behindFirst (d : Decimal) : ∀ ds ∈ behindFirst d.digitChars, AllDigits ds := by
  intro ds hds
  rw [behindFirst] at hds
  split at hds
  · cases hds
  · cases hds
    constructor
    · intro h
      have := List.drop_eq_nil_iff.1 h
      omega
    · intro c hc
      exact d.isDigit_digitChars c (List.mem_of_mem_drop hc)

/-- One digit before the point, and a power of ten. -/
theorem exists_spelledBy_scientific (negative : Bool) {d : Decimal}
    (hlead : ¬ (-5 ≤ d.leading ∧ d.leading ≤ 15)) (hsmall : d.leading.natAbs < 1000) :
    ∃ n : Numeral, n.negative = negative ∧ d.SpelledBy n := by
  have hpos := d.length_digitChars_pos
  refine ⟨⟨negative, d.digitChars.take 1, behindFirst d.digitChars,
    some (d.leading < 0, Nat.toDigits 10 d.leading.natAbs)⟩, rfl,
    ⟨?_, ?_, ⟨⟨?_, ?_⟩, ?_, d.allDigits_behindFirst, ?_⟩, ?_, by simp, 0, ?_⟩⟩
  · rw [List.length_take]
    omega
  · rintro _ ⟨⟩
    exact (Nat.length_toDigits_le_iff (by decide) (by decide)).2 hsmall
  · rw [ne_eq, List.take_eq_nil_iff, not_or]
    exact ⟨by decide, List.ne_nil_of_length_pos hpos⟩
  · intro c hc
    exact d.isDigit_digitChars c (List.mem_of_mem_take hc)
  · intro h
    rw [List.head?_take, if_neg (by decide)] at h
    have hd : d.digitChars = ['0'] := Json.toDigits_noLeadingZero _ h
    simp [hd]
  · rintro _ ⟨⟩
    exact Json.allDigits_toDigits _
  · rw [pointed, if_neg hlead, scientific]
    simp [Numeral.spell, Numeral.spellPower, spellFraction_behindFirst]
  · have hl : d.leading = d.digitChars.length - 1 + d.exponent := rfl
    simp only [Numeral.toDecimal, Numeral.exponent, take_append_behindFirst, length_behindFirst,
      value_digitChars, shift_zero]
    obtain ⟨digits, exponent⟩ := d
    simp only [mk.injEq, true_and]
    dsimp only at hl
    -- The sign is kept apart from the power, so the two signs are two sums.
    by_cases h : leading ⟨digits, exponent⟩ < 0
    · simp only [h, decide_true, Json.value_toDigits]
      omega
    · simp only [h, decide_false, Json.value_toDigits]
      omega

theorem exists_spelledBy (negative : Bool) {d : Decimal} (hclean : d.digits = 0 → d.exponent = 0)
    (hsmall : d.leading.natAbs < 1000) :
    ∃ n : Numeral, n.negative = negative ∧ d.SpelledBy n := by
  by_cases hlead : -5 ≤ d.leading ∧ d.leading ≤ 15
  · by_cases hneg : d.exponent < 0
    · by_cases hin : (-d.exponent).toNat < d.digitChars.length
      · exact exists_spelledBy_inside negative hneg hlead hin
      · exact exists_spelledBy_before negative hneg hlead hin
    · exact exists_spelledBy_behind negative hneg hlead hclean
  · exact exists_spelledBy_scientific negative hlead hsmall

theorem shortest_clean (tie : Tie) {x : Binary64} (hx : x.isFinite)
    (h : (shortest tie x).digits = 0) : (shortest tie x).exponent = 0 := by
  have hm := magnitude_shortest tie hx
  have h0 : x.magnitude = 0 := by
    rw [← hm, magnitude, if_pos (.inl h)]
  simp [shortest, h0]

/-- Numbers are not so large or small that a power would need four digits. -/
theorem leading_shortest_lt (tie : Tie) {x : Binary64} (hx : x.isFinite) :
    (shortest tie x).leading.natAbs < 1000 := by
  have hm := magnitude_shortest tie hx
  have hfinite : x.magnitude < Binary64.infinity := of_decide_eq_true hx
  by_cases h0 : x.magnitude = 0
  · simp only [shortest, h0, if_true]
    decide
  · rw [magnitude] at hm
    split at hm
    · exact absurd hm.symm h0
    · split at hm
      · exact absurd hm hfinite.ne'
      · omega

end Decimal

namespace Binary64

theorem ofMagnitude_magnitude (x : Binary64) : ofMagnitude x.isNegative x.magnitude = x := by
  obtain ⟨bits⟩ := x
  have hlt : bits.toNat < 2 * signBit := bits.toNat_lt
  have hmod := Nat.div_add_mod bits.toNat signBit
  have hn : (if signBit ≤ bits.toNat then signBit + bits.toNat % signBit
      else bits.toNat % signBit) = bits.toNat := by
    split
    · rw [Nat.mod_eq_sub_mod ‹_›, Nat.mod_eq_of_lt (by omega)]
      omega
    · exact Nat.mod_eq_of_lt (by omega)
  simp only [ofMagnitude, isNegative, magnitude, decide_eq_true_eq, hn, UInt64.ofNat_toNat]

end Binary64
end FilterAlgebra
