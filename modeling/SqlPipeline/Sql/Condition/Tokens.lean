/-
  SqlPipeline.Sql.Condition.Tokens — how a tree of conditions is put into words.

  A tree is written in two steps. First it becomes tokens: leaves, connectives, NOT and
  parentheses. Which members get parentheses is decided here, from the shape of the tree
  alone:
  - a group of AND or OR with several members is enclosed;
  - a raw fragment that mentions AND or OR is enclosed beside siblings, also as the only
    member of a group;
  - an OR group of one member joins its left neighbour with OR, whatever the group's own
    connective;
  - NOT over comparisons turns each of them around; over anything else it is written.
  Then each token becomes pieces of statement text. A leaf is a comparison, a membership
  or NULL test, plain or negated, or a raw fragment.
-/

import SqlPipeline.Sql.Condition
import SqlPipeline.Sql.Rendered

namespace SqlPipeline

/-! ## Leaves -/

/-- A condition without connectives of its own, as far as the tree can tell. -/
inductive Leaf where
  | raw (sql : String) (values : List Value)
  | compare (column : String) (op : Comparison) (value : Value)
  | member (column : String) (values : List Value) (negated : Bool)
  | isNull (column : String) (negated : Bool)
  deriving DecidableEq, Repr

namespace Leaf

/-- The fragment with values put for its question marks, from the left, while they last. -/
def rawPieces : List Value → List Char → List Piece
  | _, [] => []
  | [], c :: cs => .text (String.singleton c) :: rawPieces [] cs
  | v :: vs, c :: cs =>
    if c = '?' then .param v :: rawPieces vs cs
    else .text (String.singleton c) :: rawPieces (v :: vs) cs

/-- Equality with NULL is a NULL test. Membership in no values is membership in NULL. -/
def pieces : Leaf → List Piece
  | .raw sql values => rawPieces values sql.toList
  | .compare column .eq .null => [.name column, .text " IS NULL"]
  | .compare column .ne .null => [.name column, .text " IS NOT NULL"]
  | .compare column op v => [.name column, .text (" " ++ op.sign ++ " "), .param v]
  | .member column values negated =>
    .name column :: .text (if negated then " NOT IN (" else " IN (") ::
      (if values.isEmpty then [.text "NULL"] else Piece.commaSeparated (values.map fun v => [.param v])) ++
      [.text ")"]
  | .isNull column negated => [.name column, .text (if negated then " IS NOT NULL" else " IS NULL")]

end Leaf

/-! ## Tokens -/

inductive Token where
  | leaf (l : Leaf)
  | and
  | or
  | not
  | open
  | close
  deriving DecidableEq, Repr

def Token.pieces : Token → List Piece
  | .leaf l => l.pieces
  | .and => [.text " AND "]
  | .or => [.text " OR "]
  | .not => [.text "NOT "]
  | .open => [.text "("]
  | .close => [.text ")"]

/-- Tokens in parentheses, where they are wanted. -/
def enclosed (wanted : Bool) (ts : List Token) : List Token :=
  if wanted then .open :: ts ++ [.close] else ts

/-- Whether `word` occurs in the text. -/
def mentions (word : List Char) : List Char → Bool
  | [] => word.isEmpty
  | c :: cs => word.isPrefixOf (c :: cs) || mentions word cs

namespace Expression

/-- A raw fragment with a connective of its own, in any letter case. No letter outside
    ASCII has an upper case that could complete a connective. -/
def isCompound : Expression → Bool
  | .raw sql _ =>
    let upper := sql.toList.map Char.toUpper
    mentions [' ', 'A', 'N', 'D', ' '] upper || mentions [' ', 'O', 'R', ' '] upper
  | _ => false

def isGroupOfOr : Expression → Bool
  | .or _ => true
  | _ => false

def isSingleOr : Expression → Bool
  | .or [_] => true
  | _ => false

/-- Whether siblings make parentheses necessary: a compound fragment, or a group of AND or
    OR around nothing else. -/
def needsEnclosure : Expression → Bool
  | .or [e] => e.isCompound
  | .and [e] => e.isCompound
  | e => e.isCompound

/-- The leaf that denies this one, if it can be turned around. -/
def opposite? : Expression → Option Leaf
  | .compare column op v => some (.compare column op.negate v)
  | .member column values => some (.member column values true)
  | .isNull column => some (.isNull column true)
  | _ => none

mutual

def tokens : Expression → List Token
  | .raw sql values => [.leaf (.raw sql values)]
  | .compare column op v => [.leaf (.compare column op v)]
  | .member column values => [.leaf (.member column values false)]
  | .isNull column => [.leaf (.isNull column false)]
  | .and members => enclosed (1 < members.length) (joined (1 < members.length) .and true members)
  | .or members => enclosed (1 < members.length) (joined (1 < members.length) .or true members)
  | .not members =>
    if members.any (·.opposite?.isSome) then enclosed (1 < members.length) (denied true members)
    else .not :: enclosed (1 < members.length) (underNot true members)

/-- Members with a connective before each but the first. -/
def joined (several : Bool) (connective : Token) (first : Bool) : List Expression → List Token
  | [] => []
  | e :: es =>
    (if first then [] else if e.isSingleOr then [.or] else [connective]) ++
      enclosed (several && e.needsEnclosure) (tokens e) ++ joined several connective false es

/-- Members denied one by one, joined with AND. -/
def denied (first : Bool) : List Expression → List Token
  | [] => []
  | e :: es =>
    (if first then [] else [.and]) ++
      (match e.opposite? with
        | some l => [.leaf l]
        | none => .not :: enclosed e.isCompound (tokens e)) ++
      denied false es

/-- Members behind one NOT. -/
def underNot (first : Bool) : List Expression → List Token
  | [] => []
  | e :: es =>
    (if first then [] else if e.isGroupOfOr then [.or] else [.and]) ++
      enclosed e.isCompound (tokens e) ++ underNot false es

end

def pieces (e : Expression) : List Piece := e.tokens.flatMap Token.pieces

/-! ## Conditions of a statement -/

/-- An OR group that would begin a condition with its connective. -/
def dangles : Expression → Bool
  | .or [] => true
  | .or [_] => true
  | _ => false

/-- The first member that does not dangle changes places with the first member. -/
def leadWithPlain (members : List Expression) : List Expression :=
  match members.takeWhile dangles, members.dropWhile dangles with
  | e :: before, plain :: after => plain :: before ++ e :: after
  | _, _ => members

/-- A single AND group stands for its members. -/
def conjuncts : List Expression → List Expression
  | [.and members] => members
  | members => members

/-- The condition that demands all of `conditions`. -/
def conditionTokens (conditions : List Expression) : List Token :=
  let members := leadWithPlain (conjuncts conditions)
  joined (1 < members.length) .and true members

end Expression

end SqlPipeline
