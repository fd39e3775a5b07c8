import FilterAlgebra.Proofs.Reread
import FilterAlgebra.Proofs.Settled

namespace FilterAlgebra.Json
open Numeral

/-- The text `s` is what is left of `w` when something at its end is cut off. -/
def CutOff (s w : List Char) : Prop := s <+: w ∧ s ≠ w

theorem not_cutOff_nil {s : List Char} : ¬ CutOff s [] := fun h => h.2 (List.prefix_nil.1 h.1)

theorem cutOff_cons {s w : List Char} {c : Char} :
    CutOff s (c :: w) ↔ s = [] ∨ ∃ t, s = c :: t ∧ CutOff t w := by
  rw [CutOff, List.prefix_cons_iff]
  constructor
  · rintro ⟨rfl | ⟨t, rfl, ht⟩, hne⟩
    · exact .inl rfl
    · exact .inr ⟨t, rfl, ht, fun h => hne (h ▸ rfl)⟩
  · rintro (rfl | ⟨t, rfl, ht, hne⟩)
    · exact ⟨.inl rfl, nofun⟩
    · exact ⟨.inr ⟨t, rfl, ht⟩, fun h => hne (List.cons.inj h).2⟩

/-- The cut is in the first part, or the first part is whole and the cut is in the second. -/
theorem cutOff_append {s w v : List Char} :
    CutOff s (w ++ v) ↔ CutOff s w ∨ ∃ t, s = w ++ t ∧ CutOff t v := by
  induction w generalizing s with
  | nil => simp [not_cutOff_nil]
  | cons c w ih =>
    rw [List.cons_append, cutOff_cons, cutOff_cons, or_assoc]
    simp only [ih]
    constructor
    · rintro (rfl | ⟨t, rfl, ht | ⟨u, rfl, hu⟩⟩)
      · exact .inl rfl
      · exact .inr (.inl ⟨t, rfl, ht⟩)
      · exact .inr (.inr ⟨u, rfl, hu⟩)
    · rintro (rfl | ⟨t, rfl, ht⟩ | ⟨u, rfl, hu⟩)
      · exact .inl rfl
      · exact .inr ⟨t, rfl, .inl ht⟩
      · exact .inr ⟨w ++ u, rfl, .inr ⟨u, rfl, hu⟩⟩

theorem CutOff.length_lt {s w : List Char} (h : CutOff s w) : s.length < w.length :=
  Nat.lt_of_le_of_ne h.1.length_le fun heq => h.2 (h.1.eq_of_length heq)

/-- The reader misses something, or takes all that is left for a value with the property. -/
def MeetsEnd (P : α → Prop) (e : Except Fault (α × List Char)) : Prop :=
  e = .error .truncated ∨ ∃ a, P a ∧ e = .ok (a, [])

theorem AllDigits.cutOff {s ds : List Char} (hds : AllDigits ds) (h : CutOff s ds) (hs : s ≠ []) :
    AllDigits s :=
  ⟨hs, fun c hc => hds.2 c (h.1.subset hc)⟩

theorem digits_all {ds : List Char} (hds : AllDigits ds) : digits .keep ds = .ok (ds, []) := by
  have h : digits .keep (ds ++ []) = .ok (ds, []) := digits_append .keep hds (by simp)
  rwa [List.append_nil] at h

theorem powerPart_cutOff {power : Option (Bool × List Char)} {s : List Char}
    (hp : ∀ p ∈ power, AllDigits p.2) (hs : CutOff s (spellPower power)) :
    MeetsEnd (fun power' => ∀ p ∈ power', AllDigits p.2 ∧ ∃ q ∈ power, p.2.length < q.2.length)
      (powerPart .keep s) := by
  cases power with
  | none => exact absurd hs not_cutOff_nil
  | some p =>
    obtain ⟨negative, ds⟩ := p
    rcases cutOff_cons.1 hs with rfl | ⟨t, rfl, ht⟩
    · exact .inr ⟨none, by simp, rfl⟩
    rcases cutOff_cons.1 ht with rfl | ⟨u, rfl, hu⟩
    · exact .inl rfl
    rw [powerPart_sign]
    by_cases hne : u = []
    · subst hne
      exact .inl rfl
    · have hdigits := (hp _ rfl).cutOff hu hne
      refine .inr ⟨some (negative, u), ?_, by rw [digits_all hdigits]; rfl⟩
      rintro _ ⟨⟩
      exact ⟨hdigits, _, rfl, hu.length_lt⟩

theorem head_of_cutOff_spellPower {power : Option (Bool × List Char)} {s : List Char}
    (hs : CutOff s (spellPower power)) : ∀ c ∈ s.head?, c.isDigit = false ∧ c ≠ '.' := by
  cases power with
  | none => exact absurd hs not_cutOff_nil
  | some p =>
    rcases cutOff_cons.1 hs with rfl | ⟨t, rfl, -⟩
    · simp
    · rintro _ ⟨⟩
      decide

section Cut

variable {n : Numeral} {s : List Char} {k : ℕ}

/-- A numeral is found at most, and it has at most `k` digits in its power. -/
abbrev Curtailed (k : ℕ) : Except Fault (Numeral × List Char) → Prop :=
  MeetsEnd fun n => n.WellFormed ∧ n.Bounded k

theorem curtailed_of_parts (hb : n.Bounded (k + 1)) {whole : List Char}
    (fraction : Option (List Char)) (hwhole : AllDigits whole)
    (hzero : whole.head? = some '0' → whole = ['0']) (hlen : whole.length ≤ n.whole.length)
    (hf : ∀ ds ∈ fraction, AllDigits ds) :
    Curtailed k (numeral .keep (sign n.negative ++ (whole ++ spellFraction fraction))) := by
  have h : numeral .keep (sign n.negative ++ (whole ++ (spellFraction fraction ++ []))) =
      .ok (⟨n.negative, whole, fraction, none⟩, []) :=
    numeral_fraction .keep n.negative hwhole hzero hf (by simp)
  rw [List.append_nil] at h
  exact .inr ⟨_, ⟨⟨hwhole, hzero, hf, by simp⟩, hlen.trans hb.whole, by simp⟩, h⟩

theorem numeral_cutOff_whole (hn : n.WellFormed) (hb : n.Bounded (k + 1))
    (hs : CutOff s n.whole) : Curtailed k (numeral .keep (sign n.negative ++ s)) := by
  by_cases hne : s = []
  · subst hne
    cases n.negative <;> exact .inl rfl
  · -- A whole part that begins with a zero is too short to be cut.
    have hzero : s.head? ≠ some '0' := by
      intro h
      have hhead : n.whole.head? = some '0' := by
        obtain ⟨v, hv⟩ := hs.1
        rw [← hv, List.head?_append_of_ne_nil _ hne, h]
      have hlt := hs.length_lt
      rw [hn.noLeadingZero hhead, List.length_singleton] at hlt
      exact hne (List.length_eq_zero_iff.1 (by omega))
    have h := curtailed_of_parts hb none (hn.whole.cutOff hs hne) (fun h => absurd h hzero)
      hs.length_lt.le (by simp)
    rwa [spellFraction, List.append_nil] at h

theorem numeral_cutOff_fraction (hn : n.WellFormed) (hb : n.Bounded (k + 1))
    (hs : CutOff s (spellFraction n.fraction)) :
    Curtailed k (numeral .keep (sign n.negative ++ (n.whole ++ s))) := by
  cases hf : n.fraction with
  | none => rw [hf] at hs; exact absurd hs not_cutOff_nil
  | some ds =>
    rw [hf] at hs
    rcases cutOff_cons.1 hs with rfl | ⟨t, rfl, ht⟩
    · exact curtailed_of_parts hb none hn.whole hn.noLeadingZero le_rfl (by simp)
    by_cases hne : t = []
    · subst hne
      rw [numeral_whole .keep n.negative hn.whole hn.noLeadingZero (by simp)]
      exact .inl rfl
    · refine curtailed_of_parts hb (some t) hn.whole hn.noLeadingZero le_rfl ?_
      rintro _ ⟨⟩
      exact (hn.fraction ds hf).cutOff ht hne

theorem numeral_cutOff_power (hn : n.WellFormed) (hb : n.Bounded (k + 1))
    (hs : CutOff s (spellPower n.power)) :
    Curtailed k (numeral .keep
      (sign n.negative ++ (n.whole ++ (spellFraction n.fraction ++ s)))) := by
  rw [numeral_fraction .keep n.negative hn.whole hn.noLeadingZero hn.fraction
    (head_of_cutOff_spellPower hs)]
  rcases powerPart_cutOff hn.power hs with h | ⟨power, hpower, h⟩
  · exact .inl (by rw [h]; rfl)
  · refine .inr ⟨⟨n.negative, n.whole, n.fraction, power⟩,
      ⟨⟨hn.whole, hn.noLeadingZero, hn.fraction, fun p hp => (hpower p hp).1⟩, hb.whole, ?_⟩,
      by rw [h]; rfl⟩
    intro p hp
    obtain ⟨-, q, hq, hlt⟩ := hpower p hp
    have hq := hb.power q hq
    omega

/-- A cut leaves a sign, a point or a power without digits behind it, or a shorter numeral. -/
theorem numeral_cutOff (hn : n.WellFormed) (hb : n.Bounded (k + 1)) (hs : CutOff s n.spell) :
    Curtailed k (numeral .keep s) := by
  rw [Numeral.spell, List.append_assoc, List.append_assoc] at hs
  rcases cutOff_append.1 hs with hsign | ⟨t, rfl, ht⟩
  · obtain rfl : s = [] := by
      have hlt := hsign.length_lt
      rw [sign] at hlt
      split at hlt
      · exact List.length_eq_zero_iff.1 (by simpa using hlt)
      · simp at hlt
    exact .inl rfl
  rcases cutOff_append.1 ht with hwhole | ⟨u, rfl, hu⟩
  · exact numeral_cutOff_whole hn hb hwhole
  rcases cutOff_append.1 hu with hfraction | ⟨v, rfl, hv⟩
  · exact numeral_cutOff_fraction hn hb hfraction
  · exact numeral_cutOff_power hn hb hv

end Cut

abbrev IsFlat (j : Json) : Prop := j.nesting = 0

section Finite

variable {n : Numeral}

theorem exponent_kept_le (hn : n.WellFormed) (hb : n.Bounded 2) : n.kept.exponent ≤ 119 := by
  have hpower : ∀ p ∈ n.power, value p.2 < 100 := fun p hp =>
    (value_lt (hn.power p hp).2).trans_le (Nat.pow_le_pow_right (by decide) (hb.power p hp))
  have hexponent : n.exponent ≤ 99 := by
    rw [exponent]
    split
    · omega
    · next ds hp =>
      have hvalue : value ds < 100 := hpower _ hp
      omega
    · omega
  have hover := (snd_takeUp_le 0 n.whole).trans hb.whole
  simp only [kept]
  omega

/-- Digits and power are far from the largest number. -/
theorem exists_toJson (hn : n.WellFormed) (hb : n.Bounded 2) :
    ∃ j, n.toJson = .ok j ∧ IsFlat j := by
  rw [toJson]
  split
  · next i _ => exact ⟨.int i, rfl, rfl⟩
  · have hexponent : n.kept.exponent.toNat ≤ 119 := by
      have := exponent_kept_le hn hb
      omega
    have hvalue : n.kept.digits * Decimal.tenTo n.kept.exponent.toNat ≤ Decimal.safeLimit :=
      calc n.kept.digits * Decimal.tenTo n.kept.exponent.toNat
        _ ≤ 2 ^ 64 * Decimal.tenTo 119 :=
          Nat.mul_le_mul n.digits_kept_lt.le (Decimal.tenTo_mono hexponent)
        _ ≤ Decimal.safeLimit := by decide +kernel
    exact ⟨_, if_pos (Decimal.isFinite_approximate n.digits_kept_lt hvalue), rfl⟩

/-- What is left of a number may be another number, but never one that is too large to be read. -/
theorem number_cutOff {s : List Char} (hn : n.WellFormed) (hb : n.Bounded 3)
    (hs : CutOff s n.spell) : MeetsEnd IsFlat (number .keep s) := by
  rw [number]
  rcases numeral_cutOff hn hb hs with h | ⟨n', ⟨hn', hb'⟩, h⟩
  · exact .inl (by rw [h]; rfl)
  · obtain ⟨j, hj, hflat⟩ := exists_toJson hn' hb'
    refine .inr ⟨j, hflat, ?_⟩
    rw [h]
    dsimp only [bind, Except.bind]
    rw [hj]
    rfl

end Finite
end FilterAlgebra.Json
