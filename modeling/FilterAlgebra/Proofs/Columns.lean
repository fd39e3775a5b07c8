import FilterAlgebra.Proofs.ValueText

namespace FilterAlgebra

/-- Texts in order: the code of the first character that differs decides. -/
def TextBefore : List Char → List Char → Prop := List.Lex fun c d => c.toNat < d.toNat

namespace TextBefore

variable {s t u : List Char}

theorem irrefl (s : List Char) : ¬ TextBefore s s :=
  List.lex_irrefl (fun c : Char => Nat.lt_irrefl c.toNat) s

theorem asymm (h : TextBefore s t) : ¬ TextBefore t s := by
  intro h'
  exact irrefl s (List.lex_trans (fun h₁ h₂ => Nat.lt_trans h₁ h₂) h h')

/-- What stands behind a column does not count where the columns differ. -/
theorem append_right (h : TextBefore s t) (hlen : s.length = t.length) (u v : List Char) :
    TextBefore (s ++ u) (t ++ v) := by
  induction h with
  | nil => cases hlen
  | cons _ ih => exact .cons (ih (Nat.succ.inj hlen))
  | rel h => exact .rel h

theorem append_left (s : List Char) (h : TextBefore t u) : TextBefore (s ++ t) (s ++ u) :=
  List.Lex.append_left _ h s

end TextBefore

section Padded

variable {w n n' : ℕ}

theorem padded_succ (hw : 0 < w) (n : ℕ) :
    padded (w + 1) n = padded w (n / 10) ++ [Nat.digitChar (n % 10)] := by
  unfold padded
  dsimp only
  rcases Nat.lt_or_ge n 10 with hn | hn
  · obtain ⟨k, rfl⟩ := Nat.exists_eq_succ_of_ne_zero (Nat.pos_iff_ne_zero.1 hw)
    rw [Nat.toDigits_of_lt_base hn, Nat.div_eq_of_lt hn, Nat.mod_eq_of_lt hn,
      Nat.toDigits_of_lt_base (by decide : 0 < 10)]
    simp [List.replicate_succ']
  · rw [Nat.toDigits_of_base_le (by decide) hn]
    simp

theorem padded_one (hn : n < 10) : padded 1 n = [Nat.digitChar n] := by
  unfold padded
  rw [Nat.toDigits_of_lt_base hn]
  rfl

theorem length_padded (hw : 0 < w) (hn : n < 10 ^ w) : (padded w n).length = w := by
  induction w, hw using Nat.le_induction generalizing n with
  | base => rw [padded_one (by simpa using hn), List.length_singleton]
  | succ w hw ih =>
    rw [Nat.pow_succ] at hn
    rw [padded_succ hw, List.length_append, ih (by omega), List.length_singleton]

theorem digitChar_lt {d d' : ℕ} (h : d < d') (hd' : d' < 10) :
    (Nat.digitChar d).toNat < (Nat.digitChar d').toNat := by
  rw [Nat.toNat_digitChar_of_lt_ten (h.trans hd'), Nat.toNat_digitChar_of_lt_ten hd']
  omega

theorem padded_lt (hw : 0 < w) (h : n < n') (hn' : n' < 10 ^ w) :
    TextBefore (padded w n) (padded w n') := by
  induction w, hw using Nat.le_induction generalizing n n' with
  | base =>
    rw [Nat.pow_one] at hn'
    rw [padded_one (by omega), padded_one hn']
    exact .rel (digitChar_lt h hn')
  | succ w hw ih =>
    rw [Nat.pow_succ] at hn'
    rw [padded_succ hw, padded_succ hw]
    rcases Nat.lt_or_eq_of_le (show n / 10 ≤ n' / 10 by omega) with hlt | heq
    · refine (ih hlt (by omega)).append_right ?_ _ _
      rw [length_padded hw (by omega), length_padded hw (by omega)]
    · rw [heq]
      exact .append_left _ (.rel (digitChar_lt (by omega) (by omega)))

theorem padded_inj (hw : 0 < w) (hn : n < 10 ^ w) (hn' : n' < 10 ^ w)
    (h : padded w n = padded w n') : n = n' := by
  rcases Nat.lt_trichotomy n n' with hlt | heq | hgt
  · exact absurd (h ▸ padded_lt hw hlt hn') (TextBefore.irrefl _)
  · exact heq
  · exact absurd (h ▸ padded_lt hw hgt hn) (TextBefore.irrefl _)

end Padded

/-- Numbers in columns, each padded to the width of its column and followed by a mark. -/
def columns : List (ℕ × Char) → List ℕ → List Char
  | (w, mark) :: shape, n :: ns => padded w n ++ mark :: columns shape ns
  | _, _ => []

abbrev Fit (shape : List (ℕ × Char)) (ns : List ℕ) : Prop :=
  List.Forall₂ (fun column n => 0 < column.1 ∧ n < 10 ^ column.1) shape ns

section Columns

variable {shape : List (ℕ × Char)} {ns ns' : List ℕ}

theorem length_columns (h : Fit shape ns) :
    (columns shape ns).length = (shape.map fun column => column.1 + 1).sum := by
  induction h with
  | nil => rfl
  | cons hn _ ih =>
    rw [columns, List.length_append, List.length_cons, length_padded hn.1 hn.2, ih,
      List.map_cons, List.sum_cons]
    omega

theorem columns_lt (h : Fit shape ns) (h' : Fit shape ns') (hlt : List.Lex (· < ·) ns ns') :
    TextBefore (columns shape ns) (columns shape ns') := by
  induction h generalizing ns' with
  | nil =>
    cases h'
    cases hlt
  | cons hn hns ih =>
    cases h' with
    | cons hn' hns' =>
      cases hlt with
      | cons hlt => exact .append_left _ (.cons (ih hns' hlt))
      | rel hlt =>
        refine (padded_lt hn.1 hlt hn'.2).append_right ?_ _ _
        rw [length_padded hn.1 hn.2, length_padded hn'.1 hn'.2]

theorem columns_inj (h : Fit shape ns) (h' : Fit shape ns')
    (heq : columns shape ns = columns shape ns') : ns = ns' := by
  induction h generalizing ns' with
  | nil =>
    cases h'
    rfl
  | cons hn hns ih =>
    cases h' with
    | cons hn' hns' =>
      rw [columns, columns] at heq
      obtain ⟨hcolumn, hrest⟩ := List.append_inj heq
        (by rw [length_padded hn.1 hn.2, length_padded hn'.1 hn'.2])
      rw [padded_inj hn.1 hn.2 hn'.2 hcolumn, ih hns' (List.cons.inj hrest).2]

theorem isDigit_or_mem_of_mem_columns {c : Char} (hc : c ∈ columns shape ns) :
    c.isDigit ∨ c ∈ shape.map Prod.snd := by
  induction shape, ns using columns.induct with
  | case1 w mark shape n ns ih =>
    rw [columns, List.mem_append, List.mem_cons] at hc
    rw [List.map_cons, List.mem_cons]
    rcases hc with hc | hc | hc
    · exact .inl (isDigit_of_mem_padded hc)
    · exact .inr (.inl hc)
    · exact (ih hc).imp_right .inr
  | case2 shape ns h =>
    rw [columns] at hc
    · cases hc
    · exact h

end Columns

end FilterAlgebra
