/-
  SqlPipeline.JsonText.Writer — compact JSON text.

  In strings quotes, backslashes and controls are escaped, the usual ones shortly;
  everything else stands as it is.
-/

namespace SqlPipeline.JsonText

def escape (c : Char) : List Char :=
  if c = '"' then ['\\', '"']
  else if c = '\\' then ['\\', '\\']
  else if c = '\x08' then ['\\', 'b']
  else if c = '\x0c' then ['\\', 'f']
  else if c = '\n' then ['\\', 'n']
  else if c = '\r' then ['\\', 'r']
  else if c = '\t' then ['\\', 't']
  else if c.toNat < 32 then
    ['\\', 'u', '0', '0', Nat.digitChar (c.toNat / 16), Nat.digitChar (c.toNat % 16)]
  else [c]

def stringText (s : String) : List Char := '"' :: s.toList.flatMap escape ++ ['"']

def boolText (b : Bool) : List Char := (if b then "true" else "false").toList

def naturalText (n : Nat) : List Char := Nat.toDigits 10 n

def arrayText (items : List (List Char)) : List Char := '[' :: [','].intercalate items ++ [']']

def memberText (name : String) (value : List Char) : List Char := stringText name ++ ':' :: value

def objectText (members : List (List Char)) : List Char := '\x7b' :: [','].intercalate members ++ ['\x7d']

end SqlPipeline.JsonText
