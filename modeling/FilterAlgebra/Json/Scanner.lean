import FilterAlgebra.Json.Basic
import FilterAlgebra.Json.Fault
import FilterAlgebra.Text.Bytes
import FilterAlgebra.Text.Hex

namespace FilterAlgebra.Json

theorem bind_eq_ok {x : Except Fault α} {f : α → Except Fault β} {b : β} :
    (x >>= f) = .ok b ↔ ∃ a, x = .ok a ∧ f a = .ok b := by
  cases x with
  | error e => simp [bind, Except.bind]
  | ok a => simp [bind, Except.bind]

/-- Whether a value is wanted or only passed over. A value that is passed over need not name
characters or numbers that exist. -/
inductive Scan where
  | keep | skip
deriving DecidableEq, Repr

/-- What a numeral means that stops at the end of the text. -/
def Scan.cutOff : Scan → Fault
  | keep => .truncated
  | skip => .malformed

def isBlank (c : Char) : Bool := c == ' ' || c == '\n' || c == '\t' || c == '\r'

def skipBlanks (s : List Char) : List Char := s.dropWhile isBlank

theorem length_dropWhile_le (p : Char → Bool) (s : List Char) :
    (s.dropWhile p).length ≤ s.length :=
  (List.dropWhile_sublist p).length_le

theorem length_skipBlanks_le (s : List Char) : (skipBlanks s).length ≤ s.length :=
  length_dropWhile_le isBlank s

theorem length_lt_of_skipBlanks {s t r : List Char} {c : Char} (hs : skipBlanks s = c :: t)
    (h : r.length ≤ t.length) : r.length < s.length := by
  have := length_skipBlanks_le s
  rw [hs] at this
  simp only [List.length_cons] at this
  omega

def word : (expected : List Char) → List Char → Except Fault (List Char)
  | [], s => .ok s
  | _ :: _, [] => .error .truncated
  | c :: cs, d :: s => if c = d then word cs s else .error .malformed

theorem length_of_word {w s r : List Char} (h : word w s = .ok r) : r.length ≤ s.length := by
  induction w generalizing s with
  | nil => simp [word] at h; simp [h]
  | cons c cs ih =>
    cases s with
    | nil => simp [word] at h
    | cons d s =>
      simp only [word] at h
      split at h
      · have := ih h; simp; omega
      · cases h

/-- Four hexadecimal digits. They take four bytes, so a text with fewer bytes left is cut off. -/
def hexUnit : List Char → Except Fault (Nat × List Char)
  | a :: b :: c :: d :: s =>
    match Text.valueOf? 16 [a, b, c, d] with
    | some n => .ok (n, s)
    | none => .error .malformed
  | s => .error (if Text.byteCount s < 4 then .truncated else .malformed)

theorem length_of_hexUnit {s r : List Char} {n : Nat} (h : hexUnit s = .ok (n, r)) :
    r.length < s.length := by
  unfold hexUnit at h
  split at h
  · split at h
    · cases h; simp; omega
    · cases h
  · cases h

/-- Units that stand for a character only in pairs. -/
def isFirstHalf (n : Nat) : Bool := 0xd800 ≤ n && n ≤ 0xdbff

def isSecondHalf (n : Nat) : Bool := 0xdc00 ≤ n && n ≤ 0xdfff

def pairChar (n m : Nat) : Char := .ofNat (0x10000 + (n - 0xd800) * 0x400 + (m - 0xdc00))

/-- The character whose first half `n` has been read. -/
def secondHalf (n : Nat) : List Char → Except Fault (Char × List Char)
  | '\\' :: 'u' :: s => do
    let (m, r) ← hexUnit s
    if isSecondHalf m then .ok (pairChar n m, r) else .error .malformed
  | [] | ['\\'] => .error .truncated
  | _ => .error .malformed

def codeEscape (scan : Scan) (s : List Char) : Except Fault (Char × List Char) := do
  let (n, r) ← hexUnit s
  if scan = .skip then .ok (.ofNat n, r)
  else if isSecondHalf n then .error .malformed
  else if isFirstHalf n then secondHalf n r
  else .ok (.ofNat n, r)

theorem length_of_secondHalf {n : Nat} {s r : List Char} {c : Char}
    (h : secondHalf n s = .ok (c, r)) : r.length < s.length := by
  unfold secondHalf at h
  split at h
  · obtain ⟨⟨m, u⟩, hu, h⟩ := bind_eq_ok.1 h
    have := length_of_hexUnit hu
    dsimp only at h
    split at h
    · simp only [Except.ok.injEq, Prod.mk.injEq] at h
      simp only [← h.2, List.length_cons]; omega
    · cases h
  · cases h
  · cases h
  · cases h

theorem length_of_codeEscape {scan : Scan} {s r : List Char} {c : Char}
    (h : codeEscape scan s = .ok (c, r)) : r.length < s.length := by
  obtain ⟨⟨n, t⟩, ht, h⟩ := bind_eq_ok.1 h
  have := length_of_hexUnit ht
  dsimp only at h
  split at h
  · cases h; assumption
  · split at h
    · cases h
    · split at h
      · have := length_of_secondHalf h; omega
      · cases h; assumption

/-- The character that an escape stands for, read from behind the backslash. -/
def escaped (scan : Scan) : List Char → Except Fault (Char × List Char)
  | [] => .error .truncated
  | 'u' :: s => codeEscape scan s
  | 'b' :: s => .ok ('\x08', s)
  | 'f' :: s => .ok ('\x0c', s)
  | 'n' :: s => .ok ('\n', s)
  | 'r' :: s => .ok ('\r', s)
  | 't' :: s => .ok ('\t', s)
  | c :: s => if c = '"' ∨ c = '\\' ∨ c = '/' then .ok (c, s) else .error .malformed

theorem length_of_escaped {scan : Scan} {s r : List Char} {c : Char}
    (h : escaped scan s = .ok (c, r)) : r.length < s.length := by
  unfold escaped at h
  split at h
  · cases h
  · have := length_of_codeEscape h; simp; omega
  · cases h; simp
  · cases h; simp
  · cases h; simp
  · cases h; simp
  · cases h; simp
  · split at h
    · cases h; simp
    · cases h

/-- A string, read from behind its opening quote up to its closing one. -/
def unquote (scan : Scan) (s : List Char) : Except Fault (List Char × List Char) :=
  match s with
  | [] => .error .truncated
  | '"' :: r => .ok ([], r)
  | '\\' :: t =>
    match h : escaped scan t with
    | .error f => .error f
    | .ok (c, u) => do
      have := length_of_escaped h
      let (cs, r) ← unquote scan u
      return (c :: cs, r)
  | c :: t =>
    if c < ' ' then .error .malformed
    else do
      let (cs, r) ← unquote scan t
      return (c :: cs, r)
termination_by s.length

theorem length_of_unquote {scan : Scan} {s r cs : List Char}
    (h : unquote scan s = .ok (cs, r)) : r.length < s.length := by
  induction hn : s.length using Nat.strongRecOn generalizing s cs with
  | ind n ih =>
    subst hn
    rw [unquote.eq_def] at h
    split at h
    · cases h
    · cases h; simp
    · split at h
      · cases h
      · next c u hu =>
        obtain ⟨⟨cs', r'⟩, hr, h⟩ := bind_eq_ok.1 h
        cases h
        have := length_of_escaped hu
        have := ih _ (by simp; omega) hr rfl
        simp; omega
    · split at h
      · cases h
      · obtain ⟨⟨cs', r'⟩, hr, h⟩ := bind_eq_ok.1 h
        cases h
        have := ih _ (by simp) hr rfl
        simp; omega

structure Numeral where
  negative : Bool
  whole : List Char
  fraction : Option (List Char)
  power : Option (Bool × List Char)
deriving DecidableEq, Repr

def digits (scan : Scan) (s : List Char) : Except Fault (List Char × List Char) :=
  match s with
  | [] => .error scan.cutOff
  | c :: _ =>
    if c.isDigit then .ok (s.takeWhile Char.isDigit, s.dropWhile Char.isDigit)
    else .error .malformed

/-- Digits without a leading zero. -/
def wholePart (scan : Scan) : List Char → Except Fault (List Char × List Char)
  | '0' :: s =>
    match s with
    | c :: _ => if c.isDigit then .error .malformed else .ok (['0'], s)
    | [] => .ok (['0'], [])
  | s => digits scan s

def fractionPart (scan : Scan) : List Char → Except Fault (Option (List Char) × List Char)
  | '.' :: s => do
    let (ds, r) ← digits scan s
    return (some ds, r)
  | s => .ok (none, s)

def powerPart (scan : Scan) : List Char → Except Fault (Option (Bool × List Char) × List Char)
  | c :: s =>
    if c = 'e' ∨ c = 'E' then
      match s with
      | '-' :: t => do
        let (ds, r) ← digits scan t
        return (some (true, ds), r)
      | '+' :: t => do
        let (ds, r) ← digits scan t
        return (some (false, ds), r)
      | t => do
        let (ds, r) ← digits scan t
        return (some (false, ds), r)
    else .ok (none, c :: s)
  | [] => .ok (none, [])

/-- A numeral, read from behind its sign. -/
def unsigned (scan : Scan) (negative : Bool) (s : List Char) :
    Except Fault (Numeral × List Char) := do
  let (whole, s) ← wholePart scan s
  let (fraction, s) ← fractionPart scan s
  let (power, s) ← powerPart scan s
  return (⟨negative, whole, fraction, power⟩, s)

def numeral (scan : Scan) : List Char → Except Fault (Numeral × List Char)
  | '-' :: s => unsigned scan true s
  | s => unsigned scan false s

theorem length_of_digits {scan : Scan} {s r ds : List Char} (h : digits scan s = .ok (ds, r)) :
    r.length < s.length := by
  unfold digits at h
  split at h
  · cases h
  · next c t =>
    split at h
    · next hc =>
      cases h
      have := length_dropWhile_le Char.isDigit t
      simp [hc]; omega
    · cases h

theorem length_of_wholePart {scan : Scan} {s r ds : List Char}
    (h : wholePart scan s = .ok (ds, r)) : r.length < s.length := by
  unfold wholePart at h
  split at h
  · split at h
    · split at h
      · cases h
      · cases h; simp
    · cases h; simp
  · exact length_of_digits h

theorem length_of_fractionPart {scan : Scan} {s r : List Char} {ds : Option (List Char)}
    (h : fractionPart scan s = .ok (ds, r)) : r.length ≤ s.length := by
  unfold fractionPart at h
  split at h
  · obtain ⟨⟨_, _⟩, hd, h⟩ := bind_eq_ok.1 h
    cases h
    have := length_of_digits hd
    simp; omega
  · cases h; simp

theorem length_of_powerPart {scan : Scan} {s r : List Char} {p : Option (Bool × List Char)}
    (h : powerPart scan s = .ok (p, r)) : r.length ≤ s.length := by
  unfold powerPart at h
  split at h
  · split at h
    · split at h
      all_goals
        obtain ⟨⟨_, _⟩, hd, h⟩ := bind_eq_ok.1 h
        cases h
        have := length_of_digits hd
        simp; omega
    · cases h; simp
  · cases h; simp

theorem length_of_unsigned {scan : Scan} {b : Bool} {s r : List Char} {n : Numeral}
    (h : unsigned scan b s = .ok (n, r)) : r.length < s.length := by
  obtain ⟨⟨_, _⟩, hw, h⟩ := bind_eq_ok.1 h
  obtain ⟨⟨_, _⟩, hf, h⟩ := bind_eq_ok.1 h
  obtain ⟨⟨_, _⟩, hp, h⟩ := bind_eq_ok.1 h
  cases h
  have := length_of_wholePart hw
  have := length_of_fractionPart hf
  have := length_of_powerPart hp
  omega

theorem length_of_numeral {scan : Scan} {s r : List Char} {n : Numeral}
    (h : numeral scan s = .ok (n, r)) : r.length < s.length := by
  unfold numeral at h
  split at h
  · have := length_of_unsigned h; simp; omega
  · exact length_of_unsigned h

namespace Numeral

def value (ds : List Char) : Nat := Nat.ofDigitChars 10 ds 0

def exponent (n : Numeral) : Int :=
  match n.power with
  | some (true, ds) => -value ds
  | some (false, ds) => value ds
  | none => 0

/-- Digits that a significand of 64 bits takes up, and the number of those that it does not. -/
def takeUp (significand : Nat) : List Char → Nat × Nat
  | [] => (significand, 0)
  | c :: cs =>
    let next := 10 * significand + (c.toNat - '0'.toNat)
    if next < 18446744073709551616 then takeUp next cs else (significand, cs.length + 1)

/-- What is kept of the decimal number that is spelled, sign apart. -/
def kept (n : Numeral) : Decimal :=
  let fraction := n.fraction.getD []
  let (whole, dropped) := takeUp 0 n.whole
  let (significand, rest) := takeUp whole fraction
  ⟨significand, n.exponent + dropped - (fraction.length - rest : Nat)⟩

/-- An integer of at most 64 bits is kept exactly; negative zero has no integer. -/
def integer? (n : Numeral) : Option Int :=
  let v := value n.whole
  if n.fraction.isSome || n.power.isSome then none
  else if n.negative then if 0 < v ∧ v ≤ 9223372036854775808 then some (-v) else none
  else if v < 18446744073709551616 then some v else none

/-- The number that a numeral is read as. Beyond the finite numbers it is no number. -/
def toJson (n : Numeral) : Except Fault Json :=
  match n.integer? with
  | some i => .ok (.int i)
  | none =>
    let x := n.kept.approximate
    if x.isFinite then .ok (.float (.ofMagnitude n.negative x.magnitude)) else .error .malformed

end Numeral

def startsNumeral (c : Char) : Bool := c == '-' || c.isDigit

/-- A number; one that is passed over is not computed. -/
def number (scan : Scan) (s : List Char) : Except Fault (Json × List Char) := do
  let (n, r) ← numeral scan s
  match scan with
  | .keep => return (← n.toJson, r)
  | .skip => return (.null, r)

theorem length_of_number {scan : Scan} {s r : List Char} {j : Json}
    (h : number scan s = .ok (j, r)) : r.length < s.length := by
  obtain ⟨⟨n, t⟩, hn, h⟩ := bind_eq_ok.1 h
  have := length_of_numeral hn
  cases scan with
  | keep =>
    obtain ⟨_, _, h⟩ := bind_eq_ok.1 h
    cases h; assumption
  | skip => cases h; assumption

end FilterAlgebra.Json
