/-
  SqlPipeline.JsonText.Skip — passing over a JSON value whose content does not matter.

  The value has to be well formed, however deep it is. Numbers may be of any size and
  surrogates may stand alone.
-/

import SqlPipeline.JsonText.Lexical

namespace SqlPipeline.JsonText

mutual

/-- Skips over a value. The first argument bounds the depth of the recursion; the length of
    the text is enough. -/
def skipValue : Nat → List Char → Except Fault (List Char)
  | 0, _ => .error .malformed
  | n + 1, cs =>
    match skipBlanks cs with
    | [] => .error .truncated
    | c :: rest =>
      if c = 'n' then word ['u', 'l', 'l'] rest
      else if c = 't' then word ['r', 'u', 'e'] rest
      else if c = 'f' then word ['a', 'l', 's', 'e'] rest
      else if c = '"' then skipString rest
      else if c = '-' ∨ c.isDigit then skipNumber (c :: rest)
      else if c = '[' then
        match skipBlanks rest with
        | ']' :: rest => .ok rest
        | [] => .error .truncated
        | rest => (skipValue n rest).bind (skipElements n)
      else if c = '\x7b' then
        match skipBlanks rest with
        | '\x7d' :: rest => .ok rest
        | [] => .error .truncated
        | rest => (skipMember n rest).bind (skipMembers n)
      else .error .malformed

/-- Skips over what follows an element. -/
def skipElements : Nat → List Char → Except Fault (List Char)
  | 0, _ => .error .malformed
  | n + 1, cs =>
    match skipBlanks cs with
    | [] => .error .truncated
    | ']' :: rest => .ok rest
    | ',' :: rest => (skipValue n rest).bind (skipElements n)
    | _ => .error .malformed

/-- Skips over a name and its value. -/
def skipMember : Nat → List Char → Except Fault (List Char)
  | 0, _ => .error .malformed
  | n + 1, cs =>
    match skipBlanks cs with
    | [] => .error .truncated
    | '"' :: rest =>
      match (skipString rest).map skipBlanks with
      | .ok (':' :: rest) => skipValue n rest
      | .ok [] => .error .truncated
      | .ok _ => .error .malformed
      | .error f => .error f
    | _ => .error .malformed

/-- Skips over what follows a member. -/
def skipMembers : Nat → List Char → Except Fault (List Char)
  | 0, _ => .error .malformed
  | n + 1, cs =>
    match skipBlanks cs with
    | [] => .error .truncated
    | '\x7d' :: rest => .ok rest
    | ',' :: rest => (skipMember n rest).bind (skipMembers n)
    | _ => .error .malformed

end

/-- Skips over a value of whatever depth. -/
def skip (cs : List Char) : Except Fault (List Char) := skipValue (2 * cs.length + 1) cs

end SqlPipeline.JsonText
