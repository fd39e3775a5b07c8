import FilterAlgebra.Decimal

namespace FilterAlgebra

/-- A document. Integers and floating-point numbers are kept apart, and members of an object stand in
the order of the text. -/
inductive Json where
  | null
  | bool (b : Bool)
  | int (n : Int)
  | float (x : Binary64)
  | text (s : String)
  | array (items : List Json)
  | object (members : List (String × Json))

namespace Json

/-- The white space of a written document: what stands before each item of a bracket that is
`depth` deep, and what stands after a colon. -/
structure Layout where
  gap : (depth : Nat) → List Char
  afterColon : List Char

def Layout.compact : Layout := ⟨fun _ => [], []⟩

/-- One item a line, two blanks for each bracket around it. -/
def Layout.indented : Layout := ⟨fun depth => '\n' :: List.replicate (2 * depth) ' ', [' ']⟩

/-- Only quotes, backslashes and control characters are escaped. -/
def escape (c : Char) : List Char :=
  if c = '"' then ['\\', '"']
  else if c = '\\' then ['\\', '\\']
  else if c = '\x08' then ['\\', 'b']
  else if c = '\x0c' then ['\\', 'f']
  else if c = '\n' then ['\\', 'n']
  else if c = '\r' then ['\\', 'r']
  else if c = '\t' then ['\\', 't']
  else if c < ' ' then
    ['\\', 'u', '0', '0', Nat.digitChar (c.toNat / 16), Nat.digitChar (c.toNat % 16)]
  else [c]

def quote (s : String) : List Char := '"' :: s.toList.flatMap escape ++ ['"']

def integer (n : Int) : List Char :=
  if n < 0 then '-' :: Nat.toDigits 10 n.natAbs else Nat.toDigits 10 n.natAbs

def keyword (b : Bool) : List Char := if b then ['t', 'r', 'u', 'e'] else ['f', 'a', 'l', 's', 'e']

def nothing : List Char := ['n', 'u', 'l', 'l']

mutual

/-- The text of a document inside `depth` brackets, put before `rest`. Numbers that are not finite
have no text of their own and are written as null. -/
def write (l : Layout) (depth : Nat) : Json → (rest : List Char) → List Char
  | null, rest => nothing ++ rest
  | bool b, rest => keyword b ++ rest
  | int n, rest => integer n ++ rest
  | float x, rest => (if x.isFinite then x.numeral else nothing) ++ rest
  | text s, rest => quote s ++ rest
  | array [], rest => '[' :: ']' :: rest
  | array (x :: xs), rest =>
    '[' :: l.gap (depth + 1) ++
      write l (depth + 1) x (writeItems l (depth + 1) xs (l.gap depth ++ ']' :: rest))
  | object [], rest => '{' :: '}' :: rest
  | object ((k, x) :: ms), rest =>
    '{' :: l.gap (depth + 1) ++ quote k ++ ':' :: l.afterColon ++
      write l (depth + 1) x (writeMembers l (depth + 1) ms (l.gap depth ++ '}' :: rest))

def writeItems (l : Layout) (depth : Nat) : List Json → (rest : List Char) → List Char
  | [], rest => rest
  | x :: xs, rest => ',' :: l.gap depth ++ write l depth x (writeItems l depth xs rest)

def writeMembers (l : Layout) (depth : Nat) :
    List (String × Json) → (rest : List Char) → List Char
  | [], rest => rest
  | (k, x) :: ms, rest =>
    ',' :: l.gap depth ++ quote k ++ ':' :: l.afterColon ++
      write l depth x (writeMembers l depth ms rest)

end

def compact (j : Json) : String := .ofList (write .compact 0 j [])

def indented (j : Json) : String := .ofList (write .indented 0 j [])

/-- A member that replaces any earlier one of its key, in key order. -/
def insertMember (k : String) (x : Json) : List (String × Json) → List (String × Json)
  | [] => [(k, x)]
  | (k', x') :: ms =>
    if k < k' then (k, x) :: (k', x') :: ms
    else if k = k' then (k, x) :: ms
    else (k', x') :: insertMember k x ms

mutual

/-- The document with every object's members in key order, the last of equal keys kept. -/
def sorted : Json → Json
  | array items => array (sortedItems items)
  | object members => object (sortedMembers members [])
  | j => j

def sortedItems : List Json → List Json
  | [] => []
  | x :: xs => sorted x :: sortedItems xs

def sortedMembers : List (String × Json) → List (String × Json) → List (String × Json)
  | [], acc => acc
  | (k, x) :: ms, acc => sortedMembers ms (insertMember k (sorted x) acc)

end
end Json
end FilterAlgebra
