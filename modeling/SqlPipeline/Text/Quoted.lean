/-
  SqlPipeline.Text.Quoted — text as it is shown to developers.

  The text stands between double quotes. Quotes and backslashes get a backslash, NUL, tab
  and line ends their short escapes, and what cannot be seen its number in hexadecimal.
-/

import SqlPipeline.Text.Unprintable

namespace SqlPipeline.Text

def shown (c : Char) : List Char :=
  if c = '\x00' then ['\\', '0']
  else if c = '\t' then ['\\', 't']
  else if c = '\n' then ['\\', 'n']
  else if c = '\r' then ['\\', 'r']
  else if c = '"' ∨ c = '\\' then ['\\', c]
  else if isUnprintable c then '\\' :: 'u' :: '\x7b' :: Nat.toDigits 16 c.toNat ++ ['\x7d']
  else [c]

def quoted (s : String) : String := String.ofList ('"' :: s.toList.flatMap shown ++ ['"'])

end SqlPipeline.Text
