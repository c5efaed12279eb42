/-
  SqlPipeline.Sql.Explained — statement text with its parameters written inline, for traces.

  Question marks take the parameters in turn; inside a single-quoted literal they are
  text. A numbered placeholder is a dollar sign and the longest run of decimal digits
  after it, wherever it stands; it is replaced when the run reads as a 64-bit count and a
  parameter has that position. A placeholder without a parameter is kept.
-/

import SqlPipeline.Sql.Dialect
import SqlPipeline.Text.DecimalDigit

namespace SqlPipeline

namespace Explain

/-- `inside` says whether the text so far ends within a literal. -/
def questions (inside : Bool) (params : List Value) : List Char → List Char
  | [] => []
  | c :: cs =>
    if c = '\'' then c :: questions (!inside) params cs
    else if c = '?' ∧ inside = false then
      match params with
      | v :: rest => v.literal ++ questions inside rest cs
      | [] => c :: questions inside [] cs
    else c :: questions inside params cs

/-- A position as it is written: ASCII digits, at most `2^64 - 1`. -/
def position? (digits : List Char) : Option Nat :=
  if digits.all Char.isDigit then
    let n := digits.foldl (fun n c => n * 10 + (c.toNat - 48)) 0
    if n < UInt64.size then some n else none
  else none

/-- The parameter that a run of digits names. -/
def named? (params : List Value) (digits : List Char) : Option Value :=
  match position? digits with
  | some (n + 1) => params[n]?
  | _ => none

/-- What stands for a dollar sign and the digits after it. -/
def settled (params : List Value) (digits : List Char) : List Char :=
  if digits.isEmpty then ['$']
  else match named? params digits with
    | some v => v.literal
    | none => '$' :: digits

/-- `pending` holds the digits read since a dollar sign. -/
def numbered (params : List Value) (pending : Option (List Char)) : List Char → List Char
  | [] => (pending.map (settled params)).getD []
  | c :: cs =>
    match pending with
    | none => if c = '$' then numbered params (some []) cs else c :: numbered params none cs
    | some digits =>
      if Text.isDecimalDigit c then numbered params (some (digits ++ [c])) cs
      else if c = '$' then settled params digits ++ numbered params (some []) cs
      else settled params digits ++ c :: numbered params none cs

end Explain

def Placeholder.explain (style : Placeholder) (sql : List Char) (params : List Value) : List Char :=
  match style with
  | .question => Explain.questions false params sql
  | .numbered => Explain.numbered params none sql

/-- The text a trace shows. -/
def Dialect.explain (d : Dialect) (sql : String) (params : List Value) : String :=
  String.ofList (d.placeholder.explain sql.toList params)

end SqlPipeline
