import Mathlib.Algebra.Order.Field.Power
import Mathlib.Data.Rat.Cast.Order
import Mathlib.Tactic.FieldSimp
import Mathlib.Tactic.Linarith
import Mathlib.Tactic.NormNum
import Mathlib.Tactic.Positivity
import Mathlib.Tactic.Ring
import FilterAlgebra.Decimal

namespace FilterAlgebra.Binary64

/-- The exponent that gives a value a significand of 53 bits, or the least exponent. -/
structure IsExponent (q : ℚ) (e : ℤ) : Prop where
  least : -1074 ≤ e
  below : q < 2 ^ (e + 53)
  above : e = -1074 ∨ 2 ^ (e + 52) ≤ q

theorem isExponent_mono {q q' : ℚ} {e e' : ℤ} (hq : q ≤ q') (h : IsExponent q e)
    (h' : IsExponent q' e') : e ≤ e' := by
  rcases h.above with he | he
  · have := h'.least
    omega
  · have hlt : (2 : ℚ) ^ (e + 52) < 2 ^ (e' + 53) := he.trans_lt (hq.trans_lt h'.below)
    have := (zpow_lt_zpow_iff_right₀ (by norm_num : (1 : ℚ) < 2)).1 hlt
    omega

theorem isExponent_unique {q : ℚ} {e e' : ℤ} (h : IsExponent q e) (h' : IsExponent q e') : e = e' :=
  le_antisymm (isExponent_mono le_rfl h h') (isExponent_mono le_rfl h' h)

theorem zpow_eq_div (a : ℚ) (e : ℤ) : a ^ e = a ^ e.toNat / a ^ (-e).toNat := by
  rcases Int.le_total 0 e with he | he
  · obtain ⟨n, rfl⟩ := Int.eq_ofNat_of_zero_le he
    simp
  · obtain ⟨n, hn⟩ := Int.eq_ofNat_of_zero_le (Int.neg_nonneg.2 he)
    obtain rfl : e = -n := by omega
    simp

theorem scaleDown_ratio (num den : ℕ) (e : ℤ) :
    ((scaleDown num den e).1 : ℚ) / (scaleDown num den e).2 = num / den / 2 ^ e := by
  rw [zpow_eq_div, scaleDown]
  simp only [Nat.shiftLeft_eq, Nat.cast_mul, Nat.cast_pow, Nat.cast_ofNat]
  field_simp

theorem scaleDown_pos {num den : ℕ} (hd : 0 < den) (e : ℤ) : 0 < (scaleDown num den e).2 := by
  simp only [scaleDown, Nat.shiftLeft_eq]
  exact Nat.mul_pos hd (Nat.two_pow_pos _)

theorem scaleDown_lt_iff (num : ℕ) {den : ℕ} (hd : 0 < den) (e : ℤ) :
    (scaleDown num den e).1 < (scaleDown num den e).2 <<< 53 ↔ (num : ℚ) / den < 2 ^ (e + 53) := by
  have hpos : (0 : ℚ) < (scaleDown num den e).2 := by exact_mod_cast scaleDown_pos hd e
  have hr := scaleDown_ratio num den e
  rw [zpow_add₀ (by norm_num), ← div_lt_iff₀' (by positivity), ← hr, div_lt_iff₀ hpos,
    Nat.shiftLeft_eq, ← Nat.cast_lt (α := ℚ)]
  push_cast
  norm_num [mul_comm]

/-- The two logarithms leave a choice of two exponents. -/
theorem log2_ratio_bounds {num den : ℕ} (hn : 0 < num) (hd : 0 < den) :
    (2 : ℚ) ^ ((num.log2 : ℤ) - den.log2 - 1) < num / den ∧
      (num : ℚ) / den < 2 ^ ((num.log2 : ℤ) - den.log2 + 1) := by
  have hn₁ : (2 : ℚ) ^ num.log2 ≤ num := by exact_mod_cast Nat.log2_self_le hn.ne'
  have hn₂ : (num : ℚ) < 2 ^ (num.log2 + 1) := by exact_mod_cast Nat.lt_log2_self
  have hd₁ : (2 : ℚ) ^ den.log2 ≤ den := by exact_mod_cast Nat.log2_self_le hd.ne'
  have hd₂ : (den : ℚ) < 2 ^ (den.log2 + 1) := by exact_mod_cast Nat.lt_log2_self
  have hpos : (0 : ℚ) < den := by exact_mod_cast hd
  have hlow : (2 : ℚ) ^ ((num.log2 : ℤ) - den.log2 - 1) = 2 ^ num.log2 / 2 ^ (den.log2 + 1) := by
    rw [← zpow_natCast, ← zpow_natCast, ← zpow_sub₀ (by norm_num)]
    congr 1
    push_cast
    ring
  have hhigh : (2 : ℚ) ^ ((num.log2 : ℤ) - den.log2 + 1) = 2 ^ (num.log2 + 1) / 2 ^ den.log2 := by
    rw [← zpow_natCast, ← zpow_natCast, ← zpow_sub₀ (by norm_num)]
    congr 1
    push_cast
    ring
  constructor
  · calc (2 : ℚ) ^ ((num.log2 : ℤ) - den.log2 - 1) = 2 ^ num.log2 / 2 ^ (den.log2 + 1) := hlow
      _ < 2 ^ num.log2 / den := div_lt_div_of_pos_left (by positivity) hpos hd₂
      _ ≤ num / den := div_le_div_of_nonneg_right hn₁ hpos.le
  · calc (num : ℚ) / den < 2 ^ (num.log2 + 1) / den := div_lt_div_of_pos_right hn₂ hpos
      _ ≤ 2 ^ (num.log2 + 1) / 2 ^ den.log2 :=
        div_le_div_of_nonneg_left (by positivity) (by positivity) hd₁
      _ = 2 ^ ((num.log2 : ℤ) - den.log2 + 1) := hhigh.symm

theorem isExponent_exponentOf {num den : ℕ} (hn : 0 < num) (hd : 0 < den) :
    IsExponent ((num : ℚ) / den) (exponentOf num den) := by
  obtain ⟨hlow, hhigh⟩ := log2_ratio_bounds hn hd
  have hmono {a b : ℤ} (h : a ≤ b) : (2 : ℚ) ^ a ≤ 2 ^ b := zpow_le_zpow_right₀ (by norm_num) h
  have hclip {e : ℤ} (hb : (num : ℚ) / den < 2 ^ (e + 53)) (ha : (2 : ℚ) ^ (e + 52) ≤ num / den) :
      IsExponent ((num : ℚ) / den) (if e < -1074 then -1074 else e) := by
    split
    · exact ⟨le_rfl, hb.trans_le (hmono (by omega)), .inl rfl⟩
    · exact ⟨by omega, hb, .inr ha⟩
  rw [exponentOf]
  generalize hl : (num.log2 : ℤ) - den.log2 - 53 = low
  have hb := scaleDown_lt_iff num hd low
  -- Of the two exponents left the test takes the one that fits; then it is clipped from below.
  dsimp only
  apply hclip
  · split
    · next h => exact hb.1 h
    · exact hhigh.trans_le (hmono (by omega))
  · split
    · exact (hlow.le.trans' (hmono (by omega)))
    · next h => exact (hmono (by omega)).trans (not_lt.1 (mt hb.2 h))

theorem roundHalfEven_mul_right (num den : ℕ) {c : ℕ} (hc : 0 < c) :
    roundHalfEven (num * c) (den * c) = roundHalfEven num den := by
  have hlt : 2 * (num % den * c) < den * c ↔ 2 * (num % den) < den := by
    rw [← Nat.mul_assoc, Nat.mul_lt_mul_right hc]
  have heq : 2 * (num % den * c) = den * c ↔ 2 * (num % den) = den := by
    rw [← Nat.mul_assoc, Nat.mul_left_inj hc.ne']
  simp only [roundHalfEven, Nat.mul_div_mul_right _ _ hc, Nat.mul_mod_mul_right, hlt, heq]

theorem roundHalfEven_mul_self (n : ℕ) {den : ℕ} (hd : 0 < den) :
    roundHalfEven (n * den) den = n := by
  simp [roundHalfEven, Nat.mul_div_cancel _ hd, hd]

/-- A value with a significand of 53 bits, or with the least exponent, is not changed. -/
theorem nearest_exact {num den s : ℕ} {e : ℤ} (hd : 0 < den) (hs : 0 < s) (hs' : s < 2 ^ 53)
    (he : -1074 ≤ e) (hnorm : e = -1074 ∨ 2 ^ 52 ≤ s) (h : (num : ℚ) / den = s * 2 ^ e)
    (hfin : (e + 1074).toNat * binade + s < infinity) :
    nearest num den = (e + 1074).toNat * binade + s := by
  have hpos : (0 : ℚ) < 2 ^ e := by positivity
  have hn : 0 < num := by
    rcases Nat.eq_zero_or_pos num with rfl | hn
    · rw [Nat.cast_zero, zero_div] at h
      have : (0 : ℚ) < s * 2 ^ e := mul_pos (by exact_mod_cast hs) hpos
      exact absurd h this.ne
    · exact hn
  have hexp : exponentOf num den = e := by
    apply isExponent_unique (isExponent_exponentOf hn hd)
    rw [h]
    refine ⟨he, ?_, hnorm.imp_right fun hle => ?_⟩
    · rw [zpow_add₀ (by norm_num), mul_comm]
      exact mul_lt_mul_of_pos_left (by exact_mod_cast hs') hpos
    · rw [zpow_add₀ (by norm_num), mul_comm (s : ℚ)]
      exact mul_le_mul_of_nonneg_left (by exact_mod_cast hle) hpos.le
  -- Scaled by its exponent the ratio is the whole number `s`, so nothing is rounded.
  have hscaled : (scaleDown num den e).1 = s * (scaleDown num den e).2 := by
    have hd₂ : ((scaleDown num den e).2 : ℚ) ≠ 0 := by exact_mod_cast (scaleDown_pos hd e).ne'
    have hr := scaleDown_ratio num den e
    rw [h, mul_div_assoc, div_self hpos.ne', mul_one, div_eq_iff hd₂] at hr
    exact_mod_cast hr
  simp only [nearest, hn.ne', if_false, hexp, hscaled,
    roundHalfEven_mul_self s (scaleDown_pos hd e), if_pos hfin]

theorem roundHalfEven_le (num den : ℕ) : roundHalfEven num den ≤ num / den + 1 := by
  rw [roundHalfEven]
  split <;> omega

theorem le_roundHalfEven (num den : ℕ) : num / den ≤ roundHalfEven num den := by
  rw [roundHalfEven]
  split <;> omega

theorem roundHalfEven_mono_left {num num' : ℕ} (den : ℕ) (h : num ≤ num') :
    roundHalfEven num den ≤ roundHalfEven num' den := by
  rcases (Nat.div_le_div_right h : num / den ≤ num' / den).lt_or_eq with hlt | heq
  · exact (roundHalfEven_le num den).trans (Nat.le_trans hlt (le_roundHalfEven num' den))
  · have hmod : num % den ≤ num' % den := by
      have hnum := Nat.div_add_mod num den
      have hnum' := Nat.div_add_mod num' den
      rw [heq] at hnum
      omega
    simp only [roundHalfEven, heq]
    split <;> split <;> omega

theorem roundHalfEven_mono {num den num' den' : ℕ} (hd : 0 < den) (hd' : 0 < den')
    (h : num * den' ≤ num' * den) : roundHalfEven num den ≤ roundHalfEven num' den' := by
  rw [← roundHalfEven_mul_right num den hd', ← roundHalfEven_mul_right num' den' hd,
    Nat.mul_comm den' den]
  exact roundHalfEven_mono_left _ h

theorem scaleDown_le {num den num' den' : ℕ} (h : num * den' ≤ num' * den) (e : ℤ) :
    (scaleDown num den e).1 * (scaleDown num' den' e).2 ≤
      (scaleDown num' den' e).1 * (scaleDown num den e).2 := by
  simp only [scaleDown, Nat.shiftLeft_eq]
  calc num * 2 ^ (-e).toNat * (den' * 2 ^ e.toNat)
    _ = num * den' * (2 ^ (-e).toNat * 2 ^ e.toNat) := by ring
    _ ≤ num' * den * (2 ^ (-e).toNat * 2 ^ e.toNat) := Nat.mul_le_mul_right _ h
    _ = num' * 2 ^ (-e).toNat * (den * 2 ^ e.toNat) := by ring

theorem roundHalfEven_scaleDown_le {num den : ℕ} (hd : 0 < den) {e : ℤ}
    (h : (num : ℚ) / den < 2 ^ (e + 53)) :
    roundHalfEven (scaleDown num den e).1 (scaleDown num den e).2 ≤ 2 ^ 53 := by
  have hlt := (scaleDown_lt_iff num hd e).2 h
  rw [Nat.shiftLeft_eq] at hlt
  exact (roundHalfEven_le _ _).trans (Nat.div_lt_of_lt_mul hlt)

theorem le_roundHalfEven_scaleDown {num den : ℕ} (hd : 0 < den) {e : ℤ}
    (h : 2 ^ (e + 52) ≤ (num : ℚ) / den) :
    2 ^ 52 ≤ roundHalfEven (scaleDown num den e).1 (scaleDown num den e).2 := by
  have hpos : (0 : ℚ) < (scaleDown num den e).2 := by exact_mod_cast scaleDown_pos hd e
  have hr := scaleDown_ratio num den e
  rw [div_eq_iff hpos.ne'] at hr
  have hscaled : 2 ^ 52 * (scaleDown num den e).2 ≤ (scaleDown num den e).1 := by
    rw [← Nat.cast_le (α := ℚ), hr]
    push_cast
    apply mul_le_mul_of_nonneg_right _ hpos.le
    rw [le_div_iff₀ (by positivity)]
    rw [zpow_add₀ (by norm_num), mul_comm] at h
    exact_mod_cast h
  exact ((Nat.le_div_iff_mul_le (scaleDown_pos hd e)).2 hscaled).trans (le_roundHalfEven _ _)

theorem nearest_mono {num den num' den' : ℕ} (hd : 0 < den) (hd' : 0 < den')
    (h : num * den' ≤ num' * den) : nearest num den ≤ nearest num' den' := by
  rcases Nat.eq_zero_or_pos num with rfl | hn
  · exact Nat.zero_le _
  have hn' : 0 < num' := Nat.pos_of_mul_pos_right ((Nat.mul_pos hn hd').trans_le h)
  have hratio : (num : ℚ) / den ≤ num' / den' := by
    rw [div_le_div_iff₀ (by exact_mod_cast hd) (by exact_mod_cast hd')]
    exact_mod_cast h
  have hexp := isExponent_exponentOf hn hd
  have hexp' := isExponent_exponentOf hn' hd'
  have hle := isExponent_mono hratio hexp hexp'
  simp only [nearest, if_neg hn.ne', if_neg hn'.ne']
  generalize exponentOf num den = e at hexp hle
  generalize exponentOf num' den' = e' at hexp' hle
  have hsum : (e + 1074).toNat * binade +
        roundHalfEven (scaleDown num den e).1 (scaleDown num den e).2 ≤
      (e' + 1074).toNat * binade +
        roundHalfEven (scaleDown num' den' e').1 (scaleDown num' den' e').2 := by
    rcases hle.lt_or_eq with hlt | rfl
    · -- The smaller ratio is rounded at most to the end of its binade.
      have hupper := roundHalfEven_scaleDown_le hd hexp.below
      have hlower := le_roundHalfEven_scaleDown hd' (hexp'.above.resolve_left (by
        have := hexp.least
        omega))
      have hleast := hexp.least
      simp only [binade]
      omega
    · exact Nat.add_le_add_left (roundHalfEven_mono (scaleDown_pos hd e) (scaleDown_pos hd' e)
        (scaleDown_le h e)) _
  -- What is left is the cut at infinity, the same on both sides.
  split <;> split <;> omega

theorem nearest_congr {num den num' den' : ℕ} (hd : 0 < den) (hd' : 0 < den')
    (h : num * den' = num' * den) : nearest num den = nearest num' den' :=
  (nearest_mono hd hd' h.le).antisymm (nearest_mono hd' hd h.ge)

/-- Only what is close to the largest number is rounded to infinity. -/
theorem nearest_lt_infinity {num den : ℕ} (hd : 0 < den) (h : (num : ℚ) / den < 2 ^ (1023 : ℤ)) :
    nearest num den < infinity := by
  rcases Nat.eq_zero_or_pos num with rfl | hn
  · rw [nearest, if_pos rfl]
    decide
  · have hexp := isExponent_exponentOf hn hd
    have hupper : exponentOf num den ≤ 970 := by
      rcases hexp.above with he | he
      · omega
      · have := (zpow_lt_zpow_iff_right₀ (by norm_num : (1 : ℚ) < 2)).1 (he.trans_lt h)
        omega
    have hround := roundHalfEven_scaleDown_le hd hexp.below
    have hsum : (exponentOf num den + 1074).toNat * binade +
        roundHalfEven (scaleDown num den (exponentOf num den)).1
          (scaleDown num den (exponentOf num den)).2 < infinity := by
      simp only [infinity, binade]
      omega
    simp only [nearest, if_neg hn.ne', if_pos hsum]
    exact hsum

theorem magnitude_ofMagnitude (negative : Bool) {m : ℕ} (hm : m < signBit) :
    (ofMagnitude negative m).magnitude = m := by
  simp only [signBit] at hm
  cases negative with
  | true =>
    simp only [magnitude, ofMagnitude, if_pos, UInt64.toNat_ofNat', signBit]
    omega
  | false =>
    simp only [magnitude, ofMagnitude, Bool.false_eq_true, if_false, UInt64.toNat_ofNat', signBit]
    omega

theorem isFinite_ofMagnitude (negative : Bool) {m : ℕ} (hm : m < infinity) :
    (ofMagnitude negative m).isFinite := by
  rw [isFinite, magnitude_ofMagnitude negative (hm.trans (by decide))]
  exact decide_eq_true hm

theorem isFinite_ofInt {n : ℤ} (hn : n.natAbs < 2 ^ 64) : (ofInt n).isFinite := by
  have hratio : ((n.natAbs : ℕ) : ℚ) / (1 : ℕ) < 2 ^ (1023 : ℤ) := by
    rw [Nat.cast_one, div_one]
    calc (n.natAbs : ℚ) < 2 ^ (64 : ℤ) := by exact_mod_cast hn
      _ ≤ 2 ^ (1023 : ℤ) := zpow_le_zpow_right₀ (by norm_num) (by norm_num)
  exact isFinite_ofMagnitude (n < 0) (nearest_lt_infinity Nat.one_pos hratio)

end FilterAlgebra.Binary64
