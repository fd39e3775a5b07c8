import FilterAlgebra.Text.Ranges
import FilterAlgebra.Text.Cluster.Table

namespace FilterAlgebra.Text

inductive Role where
  | control
  | extending
  | joiner
  | spacing
  | prepended
  | flag
  | pictograph
  | consonant
  /-- Hangul letters by their place in a syllable, and whole syllables without and with an end. -/
  | leading | vowel | trailing | open | closed
  | other
deriving DecidableEq, Repr

/-- The first code point of the Hangul syllables. -/
def firstSyllable : Nat := 0xac00

/-- Every 28th syllable has no end. -/
def hangulRole? (c : Char) : Option Role :=
  let n := c.toNat
  if firstSyllable ≤ n ∧ n ≤ 0xd7a3 then
    some (if (n - firstSyllable) % 28 = 0 then .open else .closed)
  else if within [(0x1100, 0x115f), (0xa960, 0xa97c)] c then some .leading
  else if within [(0x1160, 0x11a7), (0xd7b0, 0xd7c6), (0x16d63, 0x16d63), (0x16d67, 0x16d6a)] c then
    some .vowel
  else if within [(0x11a8, 0x11ff), (0xd7cb, 0xd7fb)] c then some .trailing
  else none

def Role.of (c : Char) : Role :=
  if ' ' ≤ c ∧ c ≤ '~' then other
  else if within controls c then control
  else if c = '\u200d' then joiner
  else if within extendingMarks c then extending
  else if within spacingMarks c then spacing
  else if within prependedSigns c then prepended
  else if within [(0x1f1e6, 0x1f1ff)] c then flag
  else if within pictographs c then pictograph
  else if within consonants c then consonant
  else (hangulRole? c).getD other

inductive Picture where
  | none | begun | joined
deriving DecidableEq, Repr

/-- How far a consonant linked to a next one has come. -/
inductive Link where
  | none | begun | linked
deriving DecidableEq, Repr

/-- What stands before a place in a text, as far as it matters there. -/
structure Before where
  role : Role
  /-- Whether an odd number of flag letters stands directly before the place. -/
  oddFlags : Bool
  picture : Picture
  link : Link
deriving DecidableEq, Repr

namespace Before

def pictureAfter (p : Picture) : Role → Picture
  | .pictograph => .begun
  | .extending => if p = .begun then .begun else .none
  | .joiner => if p = .begun then .joined else .none
  | _ => .none

/-- A joiner may stand between a consonant and its link, the sign that keeps them apart may not. -/
def linkAfter (l : Link) (c : Char) : Role → Link
  | .consonant => .begun
  | .joiner => l
  | .extending =>
    if c = '\u200c' then .none
    else if l ≠ .none && within linkers c then .linked
    else l
  | _ => .none

def push (b : Before) (c : Char) : Before :=
  let role := Role.of c
  ⟨role, role = .flag && !b.oddFlags, pictureAfter b.picture role, linkAfter b.link c role⟩

def ofChar (c : Char) : Before := push ⟨.control, false, .none, .none⟩ c

def joins (b : Before) (c : Char) : Bool :=
  match b.role, Role.of c with
  | .control, _ | _, .control => false
  | _, .extending | _, .joiner | _, .spacing => true
  | .prepended, _ => true
  | .leading, .leading | .leading, .vowel | .leading, .open | .leading, .closed => true
  | .open, .vowel | .open, .trailing | .vowel, .vowel | .vowel, .trailing => true
  | .closed, .trailing | .trailing, .trailing => true
  | _, .consonant => b.link = .linked
  | _, .pictograph => b.picture = .joined
  | .flag, .flag => b.oddFlags
  | _, _ => false

end Before

/-- The clusters of a text, where `begun` is the first one so far, backwards. -/
def clustersFrom (b : Before) (begun : List Char) : List Char → List (List Char)
  | [] => [begun.reverse]
  | c :: s =>
    if b.joins c then clustersFrom (b.push c) (c :: begun) s
    else begun.reverse :: clustersFrom (.ofChar c) [c] s

def clusters : List Char → List (List Char)
  | [] => []
  | c :: s => clustersFrom (.ofChar c) [c] s

end FilterAlgebra.Text
