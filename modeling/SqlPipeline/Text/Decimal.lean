/-
  SqlPipeline.Text.Decimal — the shortest decimal text of a binary64 number.

  A number is kept as its sixty-four bits, so that equality is decidable and a NaN keeps
  its payload. A finite number is `m · 2^q`; the reals that round to it form an interval
  whose ends belong to it exactly when `m` is even. Among the decimals in that interval
  the ones with the fewest digits are considered, and of those the nearest to the number
  is written; an exact tie goes up.

  The text is positional at every magnitude: no exponent, no point without a digit behind
  it, `-0` for the negative zero, `NaN`, `inf` and `-inf` for the rest.
-/

namespace SqlPipeline

/-- A binary64 number by its bits. -/
structure Double where
  bits : UInt64
  deriving DecidableEq, Repr

namespace Double

/-- The bit above the fraction, which normal numbers have without storing it. -/
def leadingBit : Nat := 0x10000000000000

def negative (x : Double) : Bool := 0x8000000000000000 ≤ x.bits

/-- The biased exponent, eleven bits wide. -/
def exponent (x : Double) : Nat := x.bits.toNat / leadingBit % 2048

def fraction (x : Double) : Nat := x.bits.toNat % leadingBit

/-- Both zeros are zero. -/
def isZero (x : Double) : Bool := x.exponent == 0 && x.fraction == 0

end Double

namespace Decimal

/-- A positive rational with its rounding interval, over the common denominator `den`. -/
structure Interval where
  low : Nat
  mid : Nat
  high : Nat
  den : Nat
  closed : Bool
  deriving Repr

/-- The interval of a finite nonzero number. Half a unit in the last place lies on either
    side, except that below a power of two the neighbour is only half as far away. -/
def Interval.of (x : Double) : Interval :=
  let m := if x.exponent = 0 then x.fraction else x.fraction + Double.leadingBit
  let e := if x.exponent = 0 then 1 else x.exponent
  let below := if x.fraction = 0 ∧ 1 < x.exponent then 1 else 2
  let num := Nat.pow 2 (e - 1077)
  { low := (4 * m - below) * num
    mid := 4 * m * num
    high := (4 * m + 2) * num
    den := Nat.pow 2 (1077 - e)
    closed := m % 2 == 0 }

/-- A decimal `digits · 10^power`. -/
structure Scaled where
  digits : Nat
  power : Int
  deriving DecidableEq, Repr

/-- The place `k` with `10^(k-1) ≤ mid / den < 10^k`. -/
def Interval.magnitude (r : Interval) : Int :=
  if r.den ≤ r.mid then (Nat.toDigits 10 (r.mid / r.den)).length
  else 1 - (Nat.toDigits 10 ((r.den - 1) / r.mid)).length

/-- The interval in units of `10^p`, that is with `p` moved into numerators or denominator. -/
def Interval.scale (r : Interval) (p : Int) : Interval :=
  match p with
  | .ofNat n => { r with den := r.den * Nat.pow 10 n }
  | .negSucc n =>
    let unit := Nat.pow 10 (n + 1)
    { r with low := r.low * unit, mid := r.mid * unit, high := r.high * unit }

/-- Whether the whole number `d` lies in the interval. -/
def Interval.holds (r : Interval) (d : Nat) : Bool :=
  if r.closed then r.low ≤ d * r.den && d * r.den ≤ r.high
  else r.low < d * r.den && d * r.den < r.high

/-- The whole number nearest to the middle among the two next to it that lie in the interval. -/
def Interval.nearest? (r : Interval) : Option Nat :=
  let d := r.mid / r.den
  match r.holds d, r.holds (d + 1) with
  | false, false => none
  | true, false => some d
  | false, true => some (d + 1)
  | true, true => some (if 2 * (r.mid - d * r.den) < r.den then d else d + 1)

/-- The decimals of one to seventeen digits next to the number, the shortest that reads
    back first. Seventeen digits always suffice. -/
def shortest (x : Double) : Scaled :=
  let r := Interval.of x
  let k := r.magnitude
  let hit := (List.range 17).findSome? fun n =>
    let p := k - (n + 1 : Nat)
    (r.scale p).nearest?.map fun d => if d = Nat.pow 10 (n + 1) then ⟨1, k⟩ else ⟨d, p⟩
  hit.getD ⟨0, 0⟩

/-- Positional digits of a decimal. -/
def Scaled.text (s : Scaled) : List Char :=
  let ds := Nat.toDigits 10 s.digits
  match s.power with
  | .ofNat n => ds ++ List.replicate n '0'
  | .negSucc n =>
    if n + 1 < ds.length then ds.take (ds.length - (n + 1)) ++ '.' :: ds.drop (ds.length - (n + 1))
    else '0' :: '.' :: List.replicate (n + 1 - ds.length) '0' ++ ds

end Decimal

/-- The text of a number. -/
def Double.text (x : Double) : List Char :=
  let sign := if x.negative then ['-'] else []
  if x.exponent = 2047 then
    if x.fraction = 0 then sign ++ ['i', 'n', 'f'] else ['N', 'a', 'N']
  else if x.isZero then sign ++ ['0']
  else sign ++ (Decimal.shortest x).text

end SqlPipeline
