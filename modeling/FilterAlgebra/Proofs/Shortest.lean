import FilterAlgebra.Proofs.Rounding

namespace FilterAlgebra

namespace Decimal

def toRat (d : Decimal) : ℚ := d.digits * 10 ^ d.exponent

/-- Zeros behind the digits, made good by the exponent. -/
def shift (d : Decimal) (k : ℕ) : Decimal := ⟨d.digits * 10 ^ k, d.exponent - k⟩

theorem toDigits_mul_pow {n : ℕ} (hn : 0 < n) (k : ℕ) :
    Nat.toDigits 10 (n * 10 ^ k) = Nat.toDigits 10 n ++ List.replicate k '0' := by
  induction k with
  | zero => simp
  | succ k ih =>
    have hpos : 0 < n * 10 ^ k := Nat.mul_pos hn (Nat.pow_pos (by decide))
    rw [show n * 10 ^ (k + 1) = 10 * (n * 10 ^ k) + 0 by ring,
      ← Nat.toDigits_append_toDigits (by decide) hpos (by decide), ih, List.append_assoc,
      List.replicate_succ']
    rfl

theorem leading_shift {d : Decimal} (hd : 0 < d.digits) (k : ℕ) :
    (d.shift k).leading = d.leading := by
  rw [leading, leading, digitChars, digitChars, shift]
  dsimp only
  rw [toDigits_mul_pow hd, List.length_append, List.length_replicate]
  push_cast
  ring

theorem ratio_eq_toRat (d : Decimal) :
    ((d.digits * tenTo d.exponent.toNat : ℕ) : ℚ) / (tenTo (-d.exponent).toNat : ℕ) = d.toRat := by
  simp only [tenTo, Nat.pow_eq, toRat, Binary64.zpow_eq_div 10 d.exponent]
  push_cast
  rw [mul_div_assoc]

/-- The first digit tells the size of a number. -/
theorem toRat_bounds {d : Decimal} (hd : 0 < d.digits) :
    (10 : ℚ) ^ d.leading ≤ d.toRat ∧ d.toRat < 10 ^ (d.leading + 1) := by
  have hlen : 0 < d.digitChars.length := Nat.length_toDigits_pos
  have hlow : 10 ^ (d.digitChars.length - 1) ≤ d.digits := by
    rcases Nat.eq_zero_or_pos (d.digitChars.length - 1) with h | h
    · rw [h, pow_zero]
      exact hd
    · have := (Nat.length_toDigits_le_iff (b := 10) (n := d.digits) (by decide) h).not
      rw [not_lt] at this
      exact this.1 (by change ¬ d.digitChars.length ≤ _; omega)
  have hhigh : d.digits < 10 ^ d.digitChars.length :=
    (Nat.length_toDigits_le_iff (by decide) hlen).1 le_rfl
  have hexp : d.leading = (d.digitChars.length - 1 : ℕ) + d.exponent := by
    rw [leading]
    omega
  have hpos : (0 : ℚ) < 10 ^ d.exponent := by positivity
  constructor
  · rw [hexp, zpow_add₀ (by norm_num), zpow_natCast, toRat]
    exact mul_le_mul_of_nonneg_right (by exact_mod_cast hlow) hpos.le
  · rw [show d.leading + 1 = d.digitChars.length + d.exponent by rw [leading]; ring,
      zpow_add₀ (by norm_num), zpow_natCast, toRat]
    exact mul_lt_mul_of_pos_right (by exact_mod_cast hhigh) hpos

theorem tenTo_pos (n : ℕ) : 0 < tenTo n := Nat.pow_pos (by decide)

theorem toRat_shift (d : Decimal) (k : ℕ) : (d.shift k).toRat = d.toRat := by
  rw [toRat, toRat, shift]
  dsimp only
  rw [zpow_sub₀ (by norm_num), zpow_natCast]
  push_cast
  field_simp

theorem magnitude_shift (d : Decimal) (k : ℕ) : (d.shift k).magnitude = d.magnitude := by
  rcases Nat.eq_zero_or_pos d.digits with h | h
  · simp [magnitude, shift, h]
  · have hd : (d.shift k).digits ≠ 0 := (Nat.mul_pos h (Nat.pow_pos (by decide))).ne'
    -- Both ratios have the value of the numeral, so they agree crosswise.
    have hcross := (ratio_eq_toRat (d.shift k)).trans
      ((toRat_shift d k).trans (ratio_eq_toRat d).symm)
    rw [div_eq_div_iff (by exact_mod_cast (tenTo_pos _).ne')
      (by exact_mod_cast (tenTo_pos _).ne')] at hcross
    simp only [magnitude, hd, h.ne', false_or, leading_shift h]
    rw [Binary64.nearest_congr (tenTo_pos _) (tenTo_pos _) (by exact_mod_cast hcross)]

end Decimal

namespace Binary64

theorem significand_lt (x : Binary64) : x.significand < 2 ^ 53 := by
  unfold significand
  split
  · next h => exact h.trans (by decide)
  · have := Nat.mod_lt x.magnitude (by decide : 0 < binade)
    have : binade + binade = 2 ^ 53 := by decide
    omega

theorem least_le_exponent (x : Binary64) : -1074 ≤ x.exponent := by
  unfold exponent
  split
  · exact le_rfl
  · next h =>
    have := Nat.div_pos (not_lt.1 h) (by decide)
    omega

theorem exponent_le {x : Binary64} (hx : x.isFinite) : x.exponent ≤ 971 := by
  have hlt : x.magnitude < 2047 * binade := of_decide_eq_true hx
  unfold exponent
  split
  · decide
  · have := (Nat.div_lt_iff_lt_mul (by decide)).2 hlt
    omega

theorem normal_or_least (x : Binary64) : x.exponent = -1074 ∨ 2 ^ 52 ≤ x.significand := by
  unfold exponent significand
  split
  · exact .inl rfl
  · exact .inr (Nat.le_add_left _ _)

theorem magnitude_eq (x : Binary64) :
    (x.exponent + 1074).toNat * binade + x.significand = x.magnitude := by
  unfold exponent significand
  split
  · simp
  · next h =>
    have hq := Nat.div_pos (not_lt.1 h) (by decide : 0 < binade)
    have hm := Nat.div_add_mod' x.magnitude binade
    have he : ((x.magnitude / binade : ℕ) - 1075 + 1074 : ℤ).toNat + 1 = x.magnitude / binade := by
      omega
    rw [← he, Nat.add_mul, Nat.one_mul] at hm
    omega

theorem significand_pos {x : Binary64} (hx : x.magnitude ≠ 0) : 0 < x.significand := by
  unfold significand
  split
  · exact Nat.pos_of_ne_zero hx
  · exact Nat.lt_of_lt_of_le (by decide) (Nat.le_add_left _ _)

end Binary64

namespace Decimal

theorem toRat_exact (x : Binary64) : (exact x).toRat = x.significand * 2 ^ x.exponent := by
  have hten : (10 : ℚ) ^ (if x.exponent < 0 then x.exponent else 0) =
      1 / (2 ^ (-x.exponent).toNat * 5 ^ (-x.exponent).toNat) := by
    rw [← mul_pow]
    split
    · next h =>
      rw [Binary64.zpow_eq_div, Int.toNat_of_nonpos h.le]
      norm_num
    · next h =>
      rw [Int.toNat_of_nonpos (by omega : -x.exponent ≤ 0)]
      norm_num
  rw [toRat, exact]
  simp only [Nat.shiftLeft_eq, Nat.pow_eq]
  push_cast
  rw [hten, Binary64.zpow_eq_div 2 x.exponent]
  field_simp

theorem two_pow_le_ten_pow : (2 : ℚ) ^ 1074 ≤ 10 ^ 400 :=
  calc (2 : ℚ) ^ 1074 ≤ 2 ^ (3 * 400) := pow_le_pow_right₀ (by norm_num) (by norm_num)
    _ = (2 ^ 3) ^ 400 := pow_mul _ _ _
    _ ≤ 10 ^ 400 := pow_le_pow_left₀ (by norm_num) (by norm_num) _

theorem two_zpow_le_toRat_exact {x : Binary64} (h0 : x.magnitude ≠ 0) :
    (2 : ℚ) ^ (-1074 : ℤ) ≤ (exact x).toRat := by
  have hone : (1 : ℚ) ≤ x.significand := by exact_mod_cast Binary64.significand_pos h0
  rw [toRat_exact]
  calc (2 : ℚ) ^ (-1074 : ℤ) ≤ 2 ^ x.exponent :=
        zpow_le_zpow_right₀ (by norm_num) x.least_le_exponent
    _ ≤ x.significand * 2 ^ x.exponent := le_mul_of_one_le_left (by positivity) hone

theorem toRat_exact_lt {x : Binary64} (hx : x.isFinite) : (exact x).toRat < 2 ^ (1024 : ℤ) := by
  rw [toRat_exact]
  calc (x.significand : ℚ) * 2 ^ x.exponent < 2 ^ (53 : ℤ) * 2 ^ x.exponent :=
        mul_lt_mul_of_pos_right (by exact_mod_cast x.significand_lt) (by positivity)
    _ ≤ 2 ^ (53 : ℤ) * 2 ^ (971 : ℤ) := by
        apply mul_le_mul_of_nonneg_left _ (by positivity)
        exact zpow_le_zpow_right₀ (by norm_num) (Binary64.exponent_le hx)
    _ = 2 ^ (1024 : ℤ) := (zpow_add₀ (by norm_num) _ _).symm

/-- No finite number lies where numerals are not multiplied out. -/
theorem leading_exact_bounds {x : Binary64} (hx : x.isFinite) (h0 : x.magnitude ≠ 0)
    (hdigits : 0 < (exact x).digits) : -400 ≤ (exact x).leading ∧ (exact x).leading ≤ 400 := by
  obtain ⟨hlow, hhigh⟩ := toRat_bounds hdigits
  -- A finite number is between `2 ^ -1074` and `2 ^ 1024`, and both are within `10 ^ ±400`.
  have hmono {a b : ℤ} (h : a ≤ b) : (10 : ℚ) ^ a ≤ 10 ^ b := zpow_le_zpow_right₀ (by norm_num) h
  constructor
  · apply le_of_not_gt
    intro h
    have hlt := (two_zpow_le_toRat_exact h0).trans_lt
      (hhigh.trans_le (hmono (by omega : _ ≤ (-400 : ℤ))))
    rw [zpow_neg, zpow_neg, inv_lt_inv₀ (by positivity) (by positivity), zpow_ofNat,
      zpow_ofNat] at hlt
    exact absurd two_pow_le_ten_pow hlt.not_ge
  · apply le_of_not_gt
    intro h
    have hlarge : (2 : ℚ) ^ (1024 : ℤ) ≤ 2 ^ (1074 : ℤ) :=
      zpow_le_zpow_right₀ (by norm_num) (by norm_num)
    have hlt := ((hmono (by omega : (400 : ℤ) ≤ _)).trans hlow).trans_lt
      ((toRat_exact_lt hx).trans_le hlarge)
    rw [zpow_ofNat, zpow_ofNat] at hlt
    exact absurd two_pow_le_ten_pow hlt.not_ge

/-- All digits of a finite number are read back exactly. -/
theorem magnitude_exact {x : Binary64} (hx : x.isFinite) (h0 : x.magnitude ≠ 0) :
    (exact x).magnitude = x.magnitude := by
  have hs := Binary64.significand_pos h0
  have hdigits : 0 < (exact x).digits := by
    simp only [exact, Nat.shiftLeft_eq, Nat.pow_eq]
    positivity
  obtain ⟨hsmall, hlarge⟩ := leading_exact_bounds hx h0 hdigits
  have hnear := Binary64.nearest_exact (tenTo_pos _) hs x.significand_lt x.least_le_exponent
    x.normal_or_least ((ratio_eq_toRat (exact x)).trans (toRat_exact x))
    (by rw [x.magnitude_eq]; exact of_decide_eq_true hx)
  rw [magnitude, if_neg (by simp [hdigits.ne', hsmall]), if_neg hlarge.not_gt, hnear,
    x.magnitude_eq]

/-- The search for fewer digits ends with a numeral that is read back. -/
theorem magnitude_shortest (tie : Tie) {x : Binary64} (hx : x.isFinite) :
    (shortest tie x).magnitude = x.magnitude := by
  unfold shortest
  split
  · next h => rw [h]; rfl
  · next h =>
    cases hf : (candidates tie x).find? (·.magnitude == x.magnitude) with
    | none =>
      -- No shorter numeral will do, so all digits are written.
      exact magnitude_exact hx h
    | some d => simpa using List.find?_some hf

end Decimal
end FilterAlgebra
