import FilterAlgebra.Text.Hex

namespace FilterAlgebra.Config

def isGap (c : Char) : Bool := c == ' ' || c == '\t'

/-- Characters that may stand in comments and between quotes. -/
def isPrintable (c : Char) : Bool := c == '\t' || ' ' ≤ c && c != '\x7f'

def skipGaps (s : List Char) : List Char := s.dropWhile isGap

/-- The lines of a text; a carriage return before a line feed belongs to the line's end. -/
def lines : List Char → List (List Char)
  | [] => [[]]
  | '\n' :: s => [] :: lines s
  | '\r' :: '\n' :: s => [] :: lines s
  | c :: s =>
    match lines s with
    | [] => [[c]]
    | l :: ls => (c :: l) :: ls

def isComment : List Char → Bool
  | [] => true
  | '#' :: s => s.all isPrintable
  | _ => false

/-- The character with the code that the first `n` characters spell. -/
def codeChar? (n : Nat) (s : List Char) : Option (Char × List Char) := do
  let code ← Text.valueOf? 16 (s.take n)
  if n ≤ s.length ∧ code.isValidChar then return (.ofNat code, s.drop n) else none

def escaped? : List Char → Option (Char × List Char)
  | 'b' :: s => some ('\x08', s)
  | 't' :: s => some ('\t', s)
  | 'n' :: s => some ('\n', s)
  | 'f' :: s => some ('\x0c', s)
  | 'r' :: s => some ('\r', s)
  | 'e' :: s => some ('\x1b', s)
  | 'x' :: s => codeChar? 2 s
  | 'u' :: s => codeChar? 4 s
  | 'U' :: s => codeChar? 8 s
  | c :: s => if c = '"' ∨ c = '\\' then some (c, s) else none
  | [] => none

theorem length_of_codeChar? {n : Nat} {s r : List Char} {c : Char}
    (h : codeChar? n s = some (c, r)) : r.length ≤ s.length := by
  obtain ⟨code, _, h⟩ := Option.bind_eq_some_iff.1 h
  split at h
  · simp only [pure, Option.some.injEq, Prod.mk.injEq] at h
    simp [← h.2]
  · cases h

theorem length_of_escaped? {s r : List Char} {c : Char} (h : escaped? s = some (c, r)) :
    r.length < s.length := by
  unfold escaped? at h
  split at h
  case h_7 | h_8 | h_9 => have := length_of_codeChar? h; simp; omega
  case h_10 =>
    split at h
    · cases h; simp
    · cases h
  case h_11 => cases h
  all_goals cases h; simp

def quotedKey? (s : List Char) : Option (List Char × List Char) :=
  match s with
  | [] => none
  | '"' :: r => some ([], r)
  | '\\' :: t =>
    match h : escaped? t with
    | none => none
    | some (c, u) => do
      have := length_of_escaped? h
      let (k, r) ← quotedKey? u
      return (c :: k, r)
  | c :: t =>
    if isPrintable c then do
      let (k, r) ← quotedKey? t
      return (c :: k, r)
    else none
termination_by s.length

def isBareKey (c : Char) : Bool := c.isAlphanum || c == '_' || c == '-'

def key? : List Char → Option (List Char × List Char)
  | '"' :: s => quotedKey? s
  | '\x27' :: s =>
    match s.span (· != '\x27') with
    | (k, '\x27' :: r) => if k.all isPrintable then some (k, r) else none
    | _ => none
  | s =>
    match s.span isBareKey with
    | ([], _) => none
    | r => some r

structure Setting where
  key : String
  value : List Char

def setting? (line : List Char) : Option (Option Setting) :=
  let s := skipGaps line
  if isComment s then some none else do
  let (k, r) ← key? s
  match skipGaps r with
  | '=' :: t =>
    let (v, rest) := (skipGaps t).span fun c => !isGap c && c != '#'
    if isComment (skipGaps rest) then return some ⟨.ofList k, v⟩ else none
  | _ => none

/-- Digits with single underscores between them, the underscores taken out. -/
def grouped? (isDigit : Char → Bool) : List Char → Option (List Char)
  | [] => none
  | [c] => if isDigit c then some [c] else none
  | c :: '_' :: s => if isDigit c then (grouped? isDigit s).map (c :: ·) else none
  | c :: s => if isDigit c then (grouped? isDigit s).map (c :: ·) else none

def based? (base : Nat) (s : List Char) : Option Nat := do
  Text.valueOf? base (← grouped? (fun c => (Text.hexDigit? c).isSome) s)

def decimal? (s : List Char) : Option Nat :=
  match s with
  | ['0'] => some 0
  | '0' :: _ => none
  | s => based? 10 s

/-- An integer that is not negative and has at most 64 bits. -/
def natural? (s : List Char) : Option Nat := do
  let n ← match s with
    | '0' :: 'x' :: t => based? 16 t
    | '0' :: 'o' :: t => based? 8 t
    | '0' :: 'b' :: t => based? 2 t
    | '+' :: t => decimal? t
    | '-' :: t => do
      let n ← decimal? t
      if n = 0 then return n else none
    | t => decimal? t
  if n < 18446744073709551616 then return n else none

def truth? : List Char → Option Bool
  | ['t', 'r', 'u', 'e'] => some true
  | ['f', 'a', 'l', 's', 'e'] => some false
  | _ => none

end FilterAlgebra.Config
