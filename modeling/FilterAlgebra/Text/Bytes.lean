namespace FilterAlgebra.Text

def byteCount : List Char → Nat
  | [] => 0
  | c :: s => c.utf8Size + byteCount s

end FilterAlgebra.Text
