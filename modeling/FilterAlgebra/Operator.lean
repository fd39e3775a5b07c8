namespace FilterAlgebra

inductive Comparison where
  | equal | notEqual | greater | atLeast | less | atMost
  | contains | notContains | blank | notBlank
deriving DecidableEq, Repr

namespace Comparison

def all : List Comparison :=
  [equal, notEqual, greater, atLeast, less, atMost, contains, notContains, blank, notBlank]

def spelling : Comparison → String
  | equal => "="
  | notEqual => "<>"
  | greater => ">"
  | atLeast => ">="
  | less => "<"
  | atMost => "<="
  | contains => "contains"
  | notContains => "notcontains"
  | blank => "isblank"
  | notBlank => "isnotblank"

def negate : Comparison → Comparison
  | equal => notEqual
  | notEqual => equal
  | greater => atMost
  | atLeast => less
  | less => atLeast
  | atMost => greater
  | contains => notContains
  | notContains => contains
  | blank => notBlank
  | notBlank => blank

def negateIf (inverse : Bool) (c : Comparison) : Comparison :=
  if inverse then c.negate else c

/-- Null checks take no value: they look only at whether the field is null. -/
def isNullCheck : Comparison → Bool
  | blank | notBlank => true
  | _ => false

def ofSpelling? (s : String) : Option Comparison :=
  all.find? (·.spelling == s)

@[simp] theorem negate_negate (c : Comparison) : c.negate.negate = c := by cases c <;> rfl

theorem ofSpelling?_spelling (c : Comparison) : ofSpelling? c.spelling = some c := by
  cases c <;> decide

theorem spelling_of_ofSpelling? {s : String} {c : Comparison} (h : ofSpelling? s = some c) :
    c.spelling = s := by
  simpa using List.find?_some h

theorem ofSpelling?_eq_none {s : String} (h : ∀ c : Comparison, c.spelling ≠ s) :
    ofSpelling? s = none := by
  rw [ofSpelling?, List.find?_eq_none]
  intro c _
  simpa using h c

end Comparison

inductive Connective where
  | and | or
deriving DecidableEq, Repr

namespace Connective

def spelling : Connective → String
  | and => "and"
  | or => "or"

/-- De Morgan's partner. -/
def negate : Connective → Connective
  | and => or
  | or => and

def negateIf (inverse : Bool) (c : Connective) : Connective :=
  if inverse then c.negate else c

def ofSpelling? (s : String) : Option Connective :=
  [and, or].find? (·.spelling == s)

@[simp] theorem negate_negate (c : Connective) : c.negate.negate = c := by cases c <;> rfl

theorem ofSpelling?_spelling (c : Connective) : ofSpelling? c.spelling = some c := by
  cases c <;> decide

theorem spelling_of_ofSpelling? {s : String} {c : Connective} (h : ofSpelling? s = some c) :
    c.spelling = s := by
  simpa using List.find?_some h

theorem ofSpelling?_eq_none {s : String} (h : ∀ c : Connective, c.spelling ≠ s) :
    ofSpelling? s = none := by
  rw [ofSpelling?, List.find?_eq_none]
  intro c _
  simpa using h c

end Connective

/-- A comparison target that is not a literal. -/
inductive Sentinel where
  | now | null | notNull
deriving DecidableEq, Repr

namespace Sentinel

def spelling : Sentinel → String
  | now => "@now"
  | null => "@null"
  | notNull => "@notnull"

/-- Null and not-null are partners; the current time has none. -/
def negate : Sentinel → Sentinel
  | now => now
  | null => notNull
  | notNull => null

def negateIf (inverse : Bool) (s : Sentinel) : Sentinel :=
  if inverse then s.negate else s

def ofSpelling? (s : String) : Option Sentinel :=
  [now, null, notNull].find? (·.spelling == s)

@[simp] theorem negate_negate (s : Sentinel) : s.negate.negate = s := by cases s <;> rfl

theorem ofSpelling?_spelling (s : Sentinel) : ofSpelling? s.spelling = some s := by
  cases s <;> decide

theorem spelling_of_ofSpelling? {t : String} {s : Sentinel} (h : ofSpelling? t = some s) :
    s.spelling = t := by
  simpa using List.find?_some h

end Sentinel

/-- A structural mark of the array form. -/
inductive Token where
  | not
  | compare (c : Comparison)
  | join (c : Connective)
deriving DecidableEq, Repr

namespace Token

def spelling : Token → String
  | not => "!"
  | compare c => c.spelling
  | join c => c.spelling

/-- Operators change sides; the negation mark itself is structure and stays. -/
def negateIf (inverse : Bool) : Token → Token
  | not => not
  | compare c => compare (c.negateIf inverse)
  | join c => join (c.negateIf inverse)

def ofSpelling? (s : String) : Option Token :=
  if s == "!" then some not
  else match Comparison.ofSpelling? s with
    | some c => some (compare c)
    | none => (Connective.ofSpelling? s).map join

theorem ofSpelling?_spelling (t : Token) : ofSpelling? t.spelling = some t := by
  rcases t with _ | c | c
  · decide
  · cases c <;> decide
  · cases c <;> decide

theorem spelling_of_ofSpelling? {s : String} {t : Token} (h : ofSpelling? s = some t) :
    t.spelling = s := by
  unfold ofSpelling? at h
  split at h
  · next hs => cases h; exact (eq_of_beq hs).symm
  · split at h
    · cases h; exact Comparison.spelling_of_ofSpelling? ‹_›
    · obtain ⟨c, hc, rfl⟩ := Option.map_eq_some_iff.1 h
      exact Connective.spelling_of_ofSpelling? hc

end Token
end FilterAlgebra
