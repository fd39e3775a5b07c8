import FilterAlgebra.Proofs.Arithmetic
import FilterAlgebra.Proofs.FloatText

namespace FilterAlgebra

namespace Json.Numeral

theorem takeUp_lt {s : ℕ} (hs : s < 2 ^ 64) (ds : List Char) : (takeUp s ds).1 < 2 ^ 64 := by
  induction ds generalizing s with
  | nil => exact hs
  | cons c cs ih =>
    rw [takeUp]
    split
    · next h => exact ih h
    · exact hs

theorem snd_takeUp_le (s : ℕ) (ds : List Char) : (takeUp s ds).2 ≤ ds.length := by
  induction ds generalizing s with
  | nil => exact le_rfl
  | cons c cs ih =>
    rw [takeUp]
    split
    · exact (ih _).trans (Nat.le_succ _)
    · exact le_rfl

theorem mul_pow_le_ofDigitChars (s : ℕ) (ds : List Char) :
    s * 10 ^ ds.length ≤ Nat.ofDigitChars 10 ds s := by
  rw [Nat.ofDigitChars_eq_ofDigitChars_zero, Nat.mul_comm]
  exact Nat.le_add_right _ _

theorem takeUp_le (s : ℕ) (ds : List Char) :
    (takeUp s ds).1 * 10 ^ (takeUp s ds).2 ≤ Nat.ofDigitChars 10 ds s := by
  induction ds generalizing s with
  | nil => simp [takeUp]
  | cons c cs ih =>
    rw [takeUp]
    split
    · rw [Nat.ofDigitChars_cons]
      exact ih _
    · exact mul_pow_le_ofDigitChars s (c :: cs)

theorem takeUp_of_lt {s : ℕ} {ds : List Char} (h : Nat.ofDigitChars 10 ds s < 2 ^ 64) :
    takeUp s ds = (Nat.ofDigitChars 10 ds s, 0) := by
  induction ds generalizing s with
  | nil => simp [takeUp]
  | cons c cs ih =>
    rw [Nat.ofDigitChars_cons] at h ⊢
    have hnext := (Nat.le_mul_of_pos_right _ (Nat.pow_pos (by decide))).trans
      (mul_pow_le_ofDigitChars (10 * s + (c.toNat - '0'.toNat)) cs)
    have hfits : 10 * s + (c.toNat - '0'.toNat) < 18446744073709551616 := hnext.trans_lt h
    rw [takeUp, if_pos hfits, ih h]

theorem value_lt {ds : List Char} (hds : ∀ c ∈ ds, c.isDigit) : value ds < 10 ^ ds.length := by
  induction ds using List.reverseRecOn with
  | nil => decide
  | append_singleton ds c ih =>
    rw [List.forall_mem_append] at hds
    have hrest := ih hds.1
    have hc : value [c] < 10 := by
      have hdigit := hds.2 c (List.mem_singleton_self c)
      simp only [Char.isDigit, Bool.and_eq_true, decide_eq_true_eq] at hdigit
      have hhigh : c.toNat ≤ 57 := hdigit.2
      simp [value, Nat.ofDigitChars_cons]
      omega
    rw [value_append, List.length_append, List.length_singleton, pow_one, pow_succ]
    omega

variable {n : Numeral}

theorem digits_kept_lt (n : Numeral) : n.kept.digits < 2 ^ 64 :=
  takeUp_lt (takeUp_lt (by decide) _) _

/-- A numeral with few digits before its point is not read as more than it spells. -/
theorem toRat_kept_le (hn : n.WellFormed) (hw : n.whole.length ≤ 16) :
    n.kept.toRat ≤ n.toDecimal.toRat := by
  have hlt : value n.whole < 2 ^ 64 :=
    (value_lt hn.whole.2).trans ((Nat.pow_le_pow_right (by decide) hw).trans_lt (by decide))
  have hwhole : takeUp 0 n.whole = (value n.whole, 0) := takeUp_of_lt hlt
  simp only [kept, toDecimal, hwhole, Decimal.toRat]
  generalize hfraction : n.fraction.getD [] = fraction
  have hdigits := takeUp_le (value n.whole) fraction
  have hrest := snd_takeUp_le (value n.whole) fraction
  rw [value, ← Nat.ofDigitChars_append, ← value, ← value] at hdigits
  generalize takeUp (value n.whole) fraction = taken at hdigits hrest
  have hexponent : n.exponent + (0 : ℕ) - (fraction.length - taken.2 : ℕ) =
      taken.2 + (n.exponent - fraction.length) := by omega
  rw [hexponent, zpow_add₀ (by norm_num), zpow_natCast, ← mul_assoc]
  exact mul_le_mul_of_nonneg_right (by exact_mod_cast hdigits) (by positivity)

end Json.Numeral

namespace Decimal
open Json (Numeral)

theorem toRat_lt_of_magnitude_lt {d : Decimal} {k : ℕ} (hk : 0 < k)
    (h : d.magnitude < Binary64.nearest k 1) : d.toRat < k := by
  by_contra hle
  rw [not_lt] at hle
  have hone : (1 : ℚ) ≤ d.toRat := le_trans (by exact_mod_cast hk) hle
  have hdigits : 0 < d.digits := by
    apply Nat.pos_of_ne_zero
    intro h0
    rw [toRat, h0, Nat.cast_zero, zero_mul] at hone
    exact absurd hone (by norm_num)
  have hleading : 0 < d.leading + 1 := by
    have hlt := hone.trans_lt (toRat_bounds hdigits).2
    rw [← zpow_zero (10 : ℚ)] at hlt
    exact (zpow_lt_zpow_iff_right₀ (by norm_num)).1 hlt
  rw [magnitude, if_neg (by omega)] at h
  split at h
  · exact h.not_ge (Binary64.nearest_le_infinity k 1)
  · apply h.not_ge
    apply Binary64.nearest_mono Nat.one_pos (tenTo_pos _)
    rw [← ratio_eq_toRat, le_div_iff₀ (by exact_mod_cast tenTo_pos _)] at hle
    rw [Nat.mul_one]
    exact_mod_cast hle

theorem digits_mul_le_of_toRat_lt {d : Decimal} (hdigits : d.digits < 2 ^ 64)
    (h : d.toRat < safeLimit) : d.digits * tenTo d.exponent.toNat ≤ safeLimit := by
  rcases Int.le_total 0 d.exponent with he | he
  · obtain ⟨e, he⟩ := Int.eq_ofNat_of_zero_le he
    rw [toRat, he, zpow_natCast] at h
    rw [he, Int.toNat_natCast]
    exact Nat.le_of_lt (by exact_mod_cast h)
  · rw [Int.toNat_of_nonpos he]
    exact (Nat.mul_one _).le.trans (hdigits.le.trans (by decide +kernel))

theorem shortest_congr (tie : Tie) {x y : Binary64} (h : x.magnitude = y.magnitude) :
    shortest tie x = shortest tie y := by
  have hs : x.significand = y.significand := by simp only [Binary64.significand, h]
  have he : x.exponent = y.exponent := by simp only [Binary64.exponent, h]
  have hexact : exact x = exact y := by rw [exact, exact, hs, he]
  have hcandidates : candidates tie x = candidates tie y := by
    rw [candidates, candidates, Binary64.ratio_congr h, hexact]
  rw [shortest, shortest, h, hexact, hcandidates]

/-- The two largest numbers, of which one is read as the other. -/
theorem isFinite_kept_largest (negative : Bool) :
    ∀ m ∈ [Binary64.infinity - 1, Binary64.infinity - 2],
      (Json.numeral .keep (Numeral.sign negative ++
        (shortest .even (.ofMagnitude false m)).pointed)).map (·.1.kept.approximate.isFinite) =
          .ok true := by
  cases negative <;> decide +kernel

/-- Every written number is read as a finite one. -/
theorem isFinite_kept {x : Binary64} (hx : x.isFinite) {n : Numeral}
    (hn : (shortest .even x).SpelledBy n) : n.kept.approximate.isFinite := by
  have hfinite : x.magnitude < Binary64.infinity := of_decide_eq_true hx
  by_cases hlarge : x.magnitude < Binary64.infinity - 2
  · obtain ⟨k, hk⟩ := hn.value
    have hlimit : Binary64.nearest safeLimit 1 = Binary64.infinity - 2 := by decide +kernel
    have hvalue : n.toDecimal.toRat < safeLimit := by
      apply toRat_lt_of_magnitude_lt (by decide +kernel)
      rwa [hk, magnitude_shift, magnitude_shortest .even hx, hlimit]
    have hkept := (Numeral.toRat_kept_le hn.wellFormed hn.whole).trans_lt hvalue
    exact isFinite_approximate n.digits_kept_lt (digits_mul_le_of_toRat_lt n.digits_kept_lt hkept)
  · -- Above the limit only the two largest numbers are left, each of which is looked at by itself.
    have hmem : x.magnitude ∈ [Binary64.infinity - 1, Binary64.infinity - 2] := by
      rw [List.mem_cons, List.mem_singleton]
      omega
    have hsame : (Binary64.ofMagnitude false x.magnitude).magnitude = x.magnitude :=
      Binary64.magnitude_ofMagnitude false (hfinite.trans (by decide))
    have hread : Json.numeral .keep (n.spell ++ []) = .ok (n, []) :=
      Json.numeral_spell hn.wellFormed Json.stops_nil
    have hlargest := isFinite_kept_largest n.negative _ hmem
    rw [shortest_congr .even hsame, ← hn.pointed, ← List.append_nil n.spell, hread] at hlargest
    exact Except.ok.inj hlargest

end Decimal

namespace Binary64

/-- Whether the numeral of a number, if it is finite and has one, is read as that number. -/
def ReadsBack (x : Binary64) : Prop :=
  x.isFinite → Json.number .keep x.numeral = .ok (.float x, [])

/-- What the numeral of a finite number is read as. -/
def reread (x : Binary64) : Binary64 :=
  if x.isFinite then
    match Json.number .keep x.numeral with
    | .ok (.float y, _) => y
    | _ => x
  else x

theorem exists_spelledBy {x : Binary64} (hx : x.isFinite) :
    ∃ n, (Decimal.shortest .even x).SpelledBy n ∧ n.negative = x.isNegative ∧
      n.spell = x.numeral := by
  obtain ⟨n, hneg, hn⟩ := Decimal.exists_spelledBy x.isNegative
    (Decimal.shortest_clean .even hx) (Decimal.leading_shortest_lt .even hx)
  refine ⟨n, hn, hneg, ?_⟩
  rw [hn.pointed, hneg]
  rfl

/-- A written number is a numeral, and it is read as some finite number. -/
theorem exists_numeral {x : Binary64} (hx : x.isFinite) :
    ∃ n : Json.Numeral, n.WellFormed ∧ n.spell = x.numeral ∧ n.toJson = .ok (.float x.reread) ∧
      x.reread.isFinite ∧ n.Bounded 3 := by
  obtain ⟨n, hn, -, hspell⟩ := exists_spelledBy hx
  have hkept := Decimal.isFinite_kept hx hn
  have hi : n.integer? = none := by
    rw [Json.Numeral.integer?, if_pos hn.noInteger]
  have hjson : n.toJson = .ok (.float (ofMagnitude n.negative n.kept.approximate.magnitude)) := by
    simp only [Json.Numeral.toJson, hi, if_pos hkept]
  have hnumber : Json.number .keep x.numeral =
      .ok (.float (ofMagnitude n.negative n.kept.approximate.magnitude), []) := by
    have h := Json.number_spell hn.wellFormed hjson Json.stops_nil
    rwa [List.append_nil, hspell] at h
  have hreread : x.reread = ofMagnitude n.negative n.kept.approximate.magnitude := by
    rw [reread, if_pos hx, hnumber]
  refine ⟨n, hn.wellFormed, hspell, by rw [hjson, hreread], ?_, hn.whole.trans (by decide),
    hn.power⟩
  rw [hreread]
  exact isFinite_ofMagnitude n.negative (of_decide_eq_true hkept)

/-- Different numbers have different numerals, even where one of them is read as the other. -/
theorem numeral_inj {x y : Binary64} (hx : x.isFinite) (hy : y.isFinite)
    (h : x.numeral = y.numeral) : x = y := by
  obtain ⟨n, hn, hneg, hspell⟩ := exists_spelledBy hx
  obtain ⟨m, hm, hneg', hspell'⟩ := exists_spelledBy hy
  obtain rfl : n = m :=
    Json.spell_inj hn.wellFormed hm.wellFormed (hspell.trans (h.trans hspell'.symm))
  obtain ⟨k, hk⟩ := hn.value
  obtain ⟨k', hk'⟩ := hm.value
  have hmagnitude : x.magnitude = y.magnitude := by
    rw [← Decimal.magnitude_shortest .even hx, ← Decimal.magnitude_shift _ k, ← hk, hk',
      Decimal.magnitude_shift, Decimal.magnitude_shortest .even hy]
  rw [← ofMagnitude_magnitude x, ← ofMagnitude_magnitude y, hmagnitude, ← hneg, hneg']

theorem isFinite_reread (x : Binary64) : x.reread.isFinite = x.isFinite := by
  by_cases hx : x.isFinite
  · obtain ⟨n, -, -, -, hreread, -⟩ := exists_numeral hx
    rw [hx, hreread]
  · rw [reread, if_neg hx]

theorem number_numeral {x : Binary64} (hx : x.isFinite) :
    Json.number .keep x.numeral = .ok (.float x.reread, []) := by
  obtain ⟨n, hn, hspell, hjson, -⟩ := exists_numeral hx
  have h := Json.number_spell hn hjson Json.stops_nil
  rwa [List.append_nil, hspell] at h

theorem readsBack_iff_reread {x : Binary64} : x.ReadsBack ↔ x.reread = x := by
  by_cases hx : x.isFinite
  · simp [ReadsBack, hx, number_numeral hx]
  · simp [ReadsBack, hx, reread]

instance : DecidablePred ReadsBack := fun _ => decidable_of_iff _ readsBack_iff_reread.symm

end Binary64
end FilterAlgebra
