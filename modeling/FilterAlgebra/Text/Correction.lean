import FilterAlgebra.Text.Bytes
import FilterAlgebra.Text.Cluster

namespace FilterAlgebra.Text

def backspace : Char := '\x08'

/-- A text, given backwards, without its last `n` bytes. There is none if a character would be
cut in two. -/
def rubOut? : (n : Nat) → List Char → Option (List Char)
  | 0, s => some s
  | _ + 1, [] => none
  | n + 1, c :: s => if c.utf8Size ≤ n + 1 then rubOut? (n + 1 - c.utf8Size) s else none

/-- The size of a cluster as it is remembered, in a single byte. Of a longer cluster only the
remainder is rubbed out. -/
def rememberedSize (cluster : List Char) : Nat :=
  byteCount cluster % 256

/-- What is left without the last cluster, and the sizes of the others. A text is held backwards,
and so are the sizes of its clusters. Where nothing stands, nothing is rubbed out. -/
def rubOutLast? : (sizes : List Nat) → (kept : List Char) → Option (List Nat × List Char)
  | [], kept => some ([], kept)
  | n :: sizes, kept => (rubOut? n kept).map (sizes, ·)

/-- The line that clusters leave behind what is kept of the clusters before them. -/
def correctFrom? : (clusters : List (List Char)) → (sizes : List Nat) → (kept : List Char) →
    Option (List Char)
  | [], _, kept => some kept.reverse
  | x :: xs, sizes, kept =>
    if x = [backspace] then
      (rubOutLast? sizes kept).bind fun (sizes, kept) => correctFrom? xs sizes kept
    else correctFrom? xs (rememberedSize x :: sizes) (x.reverse ++ kept)

def correct? (s : List Char) : Option (List Char) := correctFrom? (clusters s) [] []

end FilterAlgebra.Text
