/-
  SqlPipeline.Sql.Value — the values a statement binds.

  Values travel as parameters. The inline text is for traces only: NULL, TRUE and FALSE,
  decimal numbers, quoted text with every quote doubled, blobs as upper-case hexadecimal
  literals, timestamps as quoted text.

  Each kind has a zero. A zero key counts as not yet assigned and a zero time as not yet
  stamped; NULL is zero.
-/

import SqlPipeline.Text.Calendar
import SqlPipeline.Text.Decimal

namespace SqlPipeline

inductive Value where
  | null
  | bool (b : Bool)
  | int (n : Int)
  | float (x : Double)
  | text (s : String)
  | blob (bytes : List UInt8)
  | timestamp (t : Instant)
  deriving DecidableEq, Repr

namespace Value

def isNull : Value → Bool
  | .null => true
  | _ => false

def isZero : Value → Bool
  | .null => true
  | .bool b => !b
  | .int n => n == 0
  | .float x => x.isZero
  | .text s => s.isEmpty
  | .blob bytes => bytes.isEmpty
  | .timestamp t => t.seconds == 0 && t.nanos == 0

def int? : Value → Option Int
  | .int n => some n
  | _ => none

def text? : Value → Option String
  | .text s => some s
  | _ => none

/-! ## Inline text -/

/-- A sign only for negative numbers. -/
def intText : Int → List Char
  | .ofNat n => Nat.toDigits 10 n
  | .negSucc n => '-' :: Nat.toDigits 10 (n + 1)

/-- Every quote twice. -/
def doubled : List Char → List Char
  | [] => []
  | c :: cs => if c = '\'' then '\'' :: '\'' :: doubled cs else c :: doubled cs

def upperHexDigit (n : Nat) : Char := (Nat.digitChar n).toUpper

def byteText (b : UInt8) : List Char := [upperHexDigit (b.toNat / 16), upperHexDigit (b.toNat % 16)]

/-- The characters of the inline text. -/
def literal : Value → List Char
  | .null => ['N', 'U', 'L', 'L']
  | .bool true => ['T', 'R', 'U', 'E']
  | .bool false => ['F', 'A', 'L', 'S', 'E']
  | .int n => intText n
  | .float x => x.text
  | .text s => '\'' :: doubled s.toList ++ ['\'']
  | .blob bytes => 'X' :: '\'' :: bytes.flatMap byteText ++ ['\'']
  | .timestamp t => '\'' :: t.text ++ ['\'']

def inline (v : Value) : String := String.ofList v.literal

end Value

/-! ## Conversion -/

/-- What a column of type `α` binds. -/
class ToValue (α : Type) where
  toValue : α → Value

export ToValue (toValue)

instance : ToValue Value := ⟨id⟩
instance : ToValue Bool := ⟨.bool⟩
instance : ToValue Int := ⟨.int⟩
instance : ToValue Double := ⟨.float⟩
instance : ToValue String := ⟨.text⟩
instance : ToValue (List UInt8) := ⟨.blob⟩
instance : ToValue Instant := ⟨.timestamp⟩

/-- An absent value binds NULL. -/
instance {α : Type} [ToValue α] : ToValue (Option α) := ⟨fun x => x.elim .null toValue⟩

/-- A column set to a value. -/
structure Assignment where
  column : String
  value : Value
  deriving DecidableEq, Repr

end SqlPipeline
