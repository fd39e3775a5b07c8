import Mathlib.Data.List.Chain
import FilterAlgebra.Proofs.Reread
import FilterAlgebra.Proofs.Quoting

namespace FilterAlgebra.Json

/-- A text without control characters. -/
def Printed (s : List Char) : Prop := ∀ c ∈ s, ' ' ≤ c

theorem Printed.append {s t : List Char} (hs : Printed s) (ht : Printed t) : Printed (s ++ t) :=
  List.forall_mem_append.2 ⟨hs, ht⟩

theorem Printed.cons {c : Char} {s : List Char} (hc : ' ' ≤ c) (hs : Printed s) :
    Printed (c :: s) :=
  List.forall_mem_cons.2 ⟨hc, hs⟩

theorem printed_nil : Printed [] := nofun

theorem Printed.not_mem {c : Char} (hc : c < ' ') {s : List Char} (hs : Printed s) : c ∉ s :=
  fun h => Char.not_le.2 hc (hs c h)

theorem printed_digits {ds : List Char} (h : AllDigits ds) : Printed ds := by
  intro c hc
  have hdigit := h.2 c hc
  simp only [Char.isDigit, Bool.and_eq_true, decide_eq_true_eq] at hdigit
  exact Char.le_trans (by decide : ' ' ≤ '0') hdigit.1

theorem printed_spell {n : Numeral} (hn : n.WellFormed) : Printed n.spell := by
  have hsign : Printed (Numeral.sign n.negative) := by
    cases n.negative <;> simp [Numeral.sign, Printed]
  have hfraction : Printed (Numeral.spellFraction n.fraction) := by
    cases hf : n.fraction with
    | none => exact printed_nil
    | some ds => exact .cons (by decide) (printed_digits (hn.fraction ds hf))
  have hpower : Printed (Numeral.spellPower n.power) := by
    cases hp : n.power with
    | none => exact printed_nil
    | some p =>
      refine .cons (by decide) (.cons ?_ (printed_digits (hn.power p hp)))
      cases p.1 <;> decide
  exact ((hsign.append (printed_digits hn.whole)).append hfraction).append hpower

theorem printed_integer (n : ℤ) : Printed (integer n) := by
  rw [← spell_ofInt]
  exact printed_spell (wellFormed_ofInt n)

theorem printed_float {x : Binary64} : Printed (if x.isFinite then x.numeral else nothing) := by
  split
  · next hx =>
    obtain ⟨n, hn, hspell, -⟩ := Binary64.exists_numeral hx
    rw [← hspell]
    exact printed_spell hn
  · simp [Printed, nothing]

theorem printed_hexDigit {n : ℕ} (hn : n < 16) : ' ' ≤ Nat.digitChar n := by
  have h : ∀ n < 16, ' ' ≤ Nat.digitChar n := by decide
  exact h n hn

theorem printed_escape (c : Char) : Printed (escape c) := by
  have hspelled := spelledInString_escape c
  generalize escape c = w at hspelled ⊢
  cases hspelled with
  | letter hd h => exact .cons (by decide) (.cons hd printed_nil)
  | control hc =>
    have hhigh := printed_hexDigit (n := c.toNat / 16) (by omega)
    have hlow := printed_hexDigit (n := c.toNat % 16) (by omega)
    simp [Printed, hhigh, hlow]
  | plain hq hb hc => exact .cons (Char.not_lt.1 hc) printed_nil

theorem printed_quote (s : String) : Printed (quote s) := by
  rw [quote]
  refine .append (.cons (by decide) ?_) (by simp [Printed])
  intro c hc
  obtain ⟨d, -, hd⟩ := List.mem_flatMap.1 hc
  exact printed_escape d c hd

/-- A property of texts that is not lost when more of a document is put before them. -/
structure Layout.Keeps (l : Layout) (P : List Char → Prop) : Prop where
  printed : ∀ {s t}, Printed s → P t → P (s ++ t)
  gap : ∀ (depth) {t}, P t → P (l.gap (depth + 1) ++ t)
  close : ∀ (depth) {c t}, c = ']' ∨ c = '}' → P t → P (l.gap depth ++ c :: t)
  afterColon : Printed l.afterColon

namespace Layout.Keeps

variable {l : Layout} {P : List Char → Prop}

theorem cons (hl : l.Keeps P) {c : Char} (hc : ' ' ≤ c) {t : List Char} (ht : P t) : P (c :: t) :=
  hl.printed (.cons hc printed_nil) ht

theorem key (hl : l.Keeps P) (k : String) {t : List Char} (ht : P t) :
    P (quote k ++ ':' :: l.afterColon ++ t) :=
  hl.printed ((printed_quote k).append (.cons (by decide) hl.afterColon)) ht

mutual

theorem write (hl : l.Keeps P) (depth : ℕ) :
    (j : Json) → {rest : List Char} → P rest → P (write l depth j rest)
  | .null, _, h => hl.printed (by simp [Printed, nothing]) h
  | .bool b, _, h => hl.printed (by cases b <;> simp [Printed, keyword]) h
  | .int n, _, h => hl.printed (printed_integer n) h
  | .float _, _, h => hl.printed printed_float h
  | .text s, _, h => hl.printed (printed_quote s) h
  | .array [], _, h => hl.printed (s := ['[', ']']) (by simp [Printed]) h
  | .object [], _, h => hl.printed (s := ['{', '}']) (by simp [Printed]) h
  | .array (x :: xs), rest, h =>
    hl.cons (by decide) (hl.gap depth (hl.write (depth + 1) x
      (hl.writeItems depth xs (hl.close depth (.inl rfl) h))))
  | .object ((k, x) :: ms), rest, h => by
    have hx := hl.write (depth + 1) x (hl.writeMembers depth ms (hl.close depth (.inr rfl) h))
    have hmember := hl.cons (c := '{') (by decide) (hl.gap depth (hl.key k hx))
    simpa [Json.write] using hmember

theorem writeItems (hl : l.Keeps P) (depth : ℕ) :
    (xs : List Json) → {rest : List Char} → P rest → P (writeItems l (depth + 1) xs rest)
  | [], _, h => h
  | x :: xs, _, h =>
    hl.cons (by decide) (hl.gap depth (hl.write (depth + 1) x (hl.writeItems depth xs h)))

theorem writeMembers (hl : l.Keeps P) (depth : ℕ) :
    (ms : List (String × Json)) → {rest : List Char} → P rest →
      P (writeMembers l (depth + 1) ms rest)
  | [], _, h => h
  | (k, x) :: ms, _, h => by
    have hx := hl.write (depth + 1) x (hl.writeMembers depth ms h)
    have hmember := hl.cons (c := ',') (by decide) (hl.gap depth (hl.key k hx))
    simpa [Json.writeMembers] using hmember

end
end Layout.Keeps

theorem keeps_compact : Layout.compact.Keeps Printed where
  printed := .append
  gap _ _ h := h
  close _ _ _ hc h := .cons (by rcases hc with rfl | rfl <;> decide) h
  afterColon := printed_nil

theorem printed_compact (j : Json) : Printed j.compact.toList := by
  rw [compact, String.toList_ofList]
  exact keeps_compact.write 0 j printed_nil

/-- No line but the first begins with the character. -/
def NoLineOpens (c : Char) (s : List Char) : Prop := s.IsChain fun a b => a = '\n' → b ≠ c

namespace NoLineOpens

variable {c : Char} {s t : List Char}

theorem printed_append (hs : Printed s) (ht : NoLineOpens c t) : NoLineOpens c (s ++ t) := by
  induction s with
  | nil => exact ht
  | cons a s ih =>
    obtain ⟨ha, hs⟩ := List.forall_mem_cons.1 hs
    refine List.isChain_cons.2 ⟨?_, ih hs⟩
    rintro b - rfl
    exact absurd ha (by decide)

theorem lineFeed {d : Char} (hd : d ≠ c) (ht : NoLineOpens c (d :: t)) :
    NoLineOpens c ('\n' :: d :: t) :=
  List.isChain_cons_cons.2 ⟨fun _ => hd, ht⟩

end NoLineOpens

theorem printed_blanks (n : ℕ) : Printed (List.replicate n ' ') := by
  intro c hc
  obtain rfl := List.eq_of_mem_replicate hc
  exact Char.le_refl _

theorem noLineOpens_gap {c : Char} (hblank : ' ' ≠ c) (depth : ℕ) {t : List Char}
    (ht : NoLineOpens c t) : NoLineOpens c (Layout.indented.gap (depth + 1) ++ t) := by
  have hline : NoLineOpens c (' ' :: (List.replicate (2 * depth + 1) ' ' ++ t)) :=
    .printed_append (s := ' ' :: List.replicate _ ' ') (.cons (by decide) (printed_blanks _)) ht
  exact hline.lineFeed hblank

theorem keeps_indented {c : Char} (hblank : ' ' ≠ c) (harray : ']' ≠ c) (hobject : '}' ≠ c) :
    Layout.indented.Keeps (NoLineOpens c) where
  printed := .printed_append
  gap depth _ ht := noLineOpens_gap hblank depth ht
  close depth d t hd ht := by
    have hclose : NoLineOpens c (d :: t) :=
      .printed_append (s := [d]) (.cons (by rcases hd with rfl | rfl <;> decide) printed_nil) ht
    cases depth with
    | zero => exact hclose.lineFeed (by rcases hd with rfl | rfl <;> assumption)
    | succ depth => exact noLineOpens_gap hblank depth hclose
  afterColon := by simp [Printed, Layout.indented]

theorem noLineOpens_indented {c : Char} (hblank : ' ' ≠ c) (harray : ']' ≠ c) (hobject : '}' ≠ c)
    (j : Json) : NoLineOpens c j.indented.toList := by
  rw [indented, String.toList_ofList]
  exact (keeps_indented hblank harray hobject).write 0 j .nil

end FilterAlgebra.Json
