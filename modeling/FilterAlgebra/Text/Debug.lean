import FilterAlgebra.Text.Hidden

namespace FilterAlgebra.Text

def debugChar (c : Char) : List Char :=
  if c = '"' then ['\\', '"']
  else if c = '\\' then ['\\', '\\']
  else if c = '\n' then ['\\', 'n']
  else if c = '\r' then ['\\', 'r']
  else if c = '\t' then ['\\', 't']
  else if c = '\x00' then ['\\', '0']
  else if isHidden c then '\\' :: 'u' :: '{' :: Nat.toDigits 16 c.toNat ++ ['}']
  else [c]

def debug (s : String) : String := .ofList ('"' :: s.toList.flatMap debugChar ++ ['"'])

end FilterAlgebra.Text
