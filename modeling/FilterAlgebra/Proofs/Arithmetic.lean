import FilterAlgebra.Proofs.Shortest

namespace FilterAlgebra

namespace Binary64

theorem nearest_le_infinity (num den : ℕ) : nearest num den ≤ infinity := by
  rw [nearest]
  split
  · exact Nat.zero_le _
  · dsimp only
    split <;> omega

theorem ratio_pos (x : Binary64) : 0 < x.ratio.2 := by
  simp [ratio, Nat.shiftLeft_eq]

theorem ratio_congr {x y : Binary64} (h : x.magnitude = y.magnitude) : x.ratio = y.ratio := by
  simp only [ratio, significand, exponent, h]

theorem ratio_eq (x : Binary64) :
    (x.ratio.1 : ℚ) / x.ratio.2 = x.significand * 2 ^ x.exponent := by
  simp only [ratio, zpow_eq_div 2 x.exponent, Nat.shiftLeft_eq, Nat.one_mul]
  push_cast
  exact mul_div_assoc _ _ _

/-- A finite number is the one that is nearest to its own value. -/
theorem nearest_ratio {x : Binary64} (hx : x.isFinite) :
    nearest x.ratio.1 x.ratio.2 = x.magnitude := by
  by_cases h0 : x.magnitude = 0
  · have hs : x.ratio.1 = 0 := by simp [ratio, significand, h0, binade]
    rw [hs, nearest, if_pos rfl, h0]
  · have hnear := nearest_exact x.ratio_pos (significand_pos h0) x.significand_lt
      x.least_le_exponent x.normal_or_least x.ratio_eq
      (by rw [x.magnitude_eq]; exact of_decide_eq_true hx)
    rw [hnear, x.magnitude_eq]

/-- A pattern grows with the value that it stands for. -/
theorem ratio_mono {x y : Binary64} (hx : x.isFinite) (hy : y.isFinite)
    (h : x.magnitude ≤ y.magnitude) : x.ratio.1 * y.ratio.2 ≤ y.ratio.1 * x.ratio.2 := by
  by_contra hlt
  have hle := nearest_mono y.ratio_pos x.ratio_pos (Nat.le_of_not_le hlt)
  rw [nearest_ratio hx, nearest_ratio hy] at hle
  rw [ratio_congr (Nat.le_antisymm h hle)] at hlt
  exact hlt le_rfl

section Operations

variable {x x' y y' : Binary64}

theorem magnitude_product (x y : Binary64) :
    (x.product y).magnitude = nearest (x.ratio.1 * y.ratio.1) (x.ratio.2 * y.ratio.2) :=
  magnitude_ofMagnitude false ((nearest_le_infinity _ _).trans_lt (by decide))

theorem magnitude_quotient (x y : Binary64) :
    (x.quotient y).magnitude = nearest (x.ratio.1 * y.ratio.2) (x.ratio.2 * y.ratio.1) :=
  magnitude_ofMagnitude false ((nearest_le_infinity _ _).trans_lt (by decide))

theorem product_mono (hx : x.isFinite) (hx' : x'.isFinite) (hy : y.isFinite) (hy' : y'.isFinite)
    (h : x.magnitude ≤ x'.magnitude) (h' : y.magnitude ≤ y'.magnitude) :
    (x.product y).magnitude ≤ (x'.product y').magnitude := by
  rw [magnitude_product, magnitude_product]
  apply nearest_mono (Nat.mul_pos x.ratio_pos y.ratio_pos) (Nat.mul_pos x'.ratio_pos y'.ratio_pos)
  calc x.ratio.1 * y.ratio.1 * (x'.ratio.2 * y'.ratio.2)
    _ = x.ratio.1 * x'.ratio.2 * (y.ratio.1 * y'.ratio.2) := Nat.mul_mul_mul_comm _ _ _ _
    _ ≤ x'.ratio.1 * x.ratio.2 * (y'.ratio.1 * y.ratio.2) :=
      Nat.mul_le_mul (ratio_mono hx hx' h) (ratio_mono hy hy' h')
    _ = x'.ratio.1 * y'.ratio.1 * (x.ratio.2 * y.ratio.2) := Nat.mul_mul_mul_comm _ _ _ _

theorem quotient_le (hx : x.isFinite) (hy : y.ratio.2 ≤ y.ratio.1) :
    (x.quotient y).magnitude ≤ x.magnitude := by
  have hpos : 0 < y.ratio.1 := y.ratio_pos.trans_le hy
  rw [magnitude_quotient]
  calc nearest (x.ratio.1 * y.ratio.2) (x.ratio.2 * y.ratio.1)
    _ ≤ nearest x.ratio.1 x.ratio.2 := by
      apply nearest_mono (Nat.mul_pos x.ratio_pos hpos) x.ratio_pos
      calc x.ratio.1 * y.ratio.2 * x.ratio.2
        _ = x.ratio.1 * (x.ratio.2 * y.ratio.2) := by ring
        _ ≤ x.ratio.1 * (x.ratio.2 * y.ratio.1) := by gcongr
    _ = x.magnitude := nearest_ratio hx

theorem magnitude_ofInt (n : ℤ) : (ofInt n).magnitude = nearest n.natAbs 1 :=
  magnitude_ofMagnitude _ ((nearest_le_infinity _ _).trans_lt (by decide))

theorem ofInt_mono {m n : ℕ} (h : m ≤ n) : (ofInt m).magnitude ≤ (ofInt n).magnitude := by
  rw [magnitude_ofInt, magnitude_ofInt]
  exact nearest_mono Nat.one_pos Nat.one_pos (Nat.mul_le_mul_right 1 h)

theorem isFinite_of_le (hx : x.isFinite) (h : y.magnitude ≤ x.magnitude) : y.isFinite :=
  decide_eq_true (h.trans_lt (of_decide_eq_true hx))

end Operations

end Binary64

namespace Decimal
open Binary64

theorem tenTo_mono {m n : ℕ} (h : m ≤ n) : tenTo m ≤ tenTo n :=
  Nat.pow_le_pow_right (by decide) h

theorem powerOfTen_mono {m n : ℕ} (h : m ≤ n) :
    (powerOfTen m).magnitude ≤ (powerOfTen n).magnitude :=
  ofInt_mono (tenTo_mono h)

theorem isFinite_powerOfTen {n : ℕ} (hn : n ≤ 308) : (powerOfTen n).isFinite :=
  isFinite_of_le (x := powerOfTen 308) (by decide +kernel) (powerOfTen_mono hn)

theorem one_le_powerOfTen {n : ℕ} (hn : n ≤ 308) :
    (powerOfTen n).ratio.2 ≤ (powerOfTen n).ratio.1 := by
  have h := ratio_mono (isFinite_powerOfTen (Nat.zero_le 308)) (isFinite_powerOfTen hn)
    (powerOfTen_mono (Nat.zero_le n))
  have hone : (powerOfTen 0).ratio = (2 ^ 52, 2 ^ 52) := by decide +kernel
  rw [hone, Nat.mul_comm] at h
  exact Nat.le_of_mul_le_mul_right h (Nat.two_pow_pos 52)

theorem lowered_le {x : Binary64} (hx : x.isFinite) (places : ℕ) :
    (lowered x places).magnitude ≤ x.magnitude := by
  fun_induction lowered x places with
  | case1 x places h => exact quotient_le hx (one_le_powerOfTen h)
  | case2 x places h h0 => exact le_rfl
  | case3 x places h h0 ih =>
    have hstep : (x.quotient (powerOfTen 308)).magnitude ≤ x.magnitude :=
      quotient_le hx (one_le_powerOfTen le_rfl)
    exact (ih (isFinite_of_le hx hstep)).trans hstep

/-- Half way between the two numbers that are next to the largest one. -/
def safeLimit : ℕ := (2 ^ 54 - 5) * 2 ^ 970

theorem safeLimit_lt : safeLimit < tenTo 309 := by decide +kernel

/-- The largest digits that keep a value below the limit, for every power that reaches it. -/
theorem isFinite_product_powerOfTen : ∀ e < 309, 289 ≤ e →
    (ofInt (safeLimit / tenTo e : ℕ)).isFinite ∧
      ((ofInt (safeLimit / tenTo e : ℕ)).product (powerOfTen e)).isFinite := by
  decide +kernel

section Approximation

variable {d : Decimal}

theorem isFinite_product_of_small (hx : (ofInt d.digits).isFinite) (hdigits : d.digits < 2 ^ 64)
    {e : ℕ} (he : e ≤ 288) : ((ofInt d.digits).product (powerOfTen e)).isFinite := by
  have hlimit : (ofInt (2 ^ 64 : ℕ)).isFinite ∧
      ((ofInt (2 ^ 64 : ℕ)).product (powerOfTen 288)).isFinite := by decide +kernel
  exact isFinite_of_le hlimit.2 (product_mono hx hlimit.1 (isFinite_powerOfTen (by omega))
    (isFinite_powerOfTen (by decide)) (ofInt_mono hdigits.le) (powerOfTen_mono he))

theorem isFinite_product_of_le (hx : (ofInt d.digits).isFinite) {e : ℕ} (he : e ≤ 308)
    (he' : 289 ≤ e) (hvalue : d.digits * tenTo e ≤ safeLimit) :
    ((ofInt d.digits).product (powerOfTen e)).isFinite := by
  obtain ⟨hlimit, hproduct⟩ := isFinite_product_powerOfTen e (by omega) he'
  have hle : d.digits ≤ safeLimit / tenTo e := (Nat.le_div_iff_mul_le (tenTo_pos e)).2 hvalue
  exact isFinite_of_le hproduct (product_mono hx hlimit (isFinite_powerOfTen he)
    (isFinite_powerOfTen he) (ofInt_mono hle) le_rfl)

/-- Three roundings do not add up to infinity as long as the value is below the limit. -/
theorem isFinite_approximate (hdigits : d.digits < 2 ^ 64)
    (hvalue : d.digits * tenTo d.exponent.toNat ≤ safeLimit) : d.approximate.isFinite := by
  have hx : (ofInt d.digits).isFinite := isFinite_ofInt (by simpa using hdigits)
  simp only [approximate]
  split
  · exact isFinite_of_le hx (lowered_le hx _)
  split
  · by_cases he : d.exponent.toNat ≤ 288
    · exact isFinite_product_of_small hx hdigits he
    · exact isFinite_product_of_le hx (by omega) (by omega) hvalue
  split
  · exact hx
  · next he h0 =>
    have hpower := tenTo_mono (by omega : 309 ≤ d.exponent.toNat)
    have hlarge := hpower.trans (Nat.le_mul_of_pos_left _ (Nat.pos_of_ne_zero h0))
    exact absurd (hlarge.trans hvalue) safeLimit_lt.not_ge

end Approximation
end Decimal
end FilterAlgebra
