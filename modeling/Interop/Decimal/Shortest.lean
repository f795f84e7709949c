/-! The fewest decimal digits that read back as a given double. A double `m * 2 ^ e` is the
nearest one to every real of an interval around it, ends included when `m` is even. For one
digit, then two, and so on, the two neighbours of the value on that decimal grid are tried,
and the first grid with a point in the interval wins. -/

namespace Interop

/-- The number `digits * 10 ^ exponent`. -/
structure Decimal where
  digits : Nat
  exponent : Int
deriving DecidableEq, Repr

/-- The bit of a double's mantissa that its bits leave out, and the lowest bit of the exponent
that stands in its place. -/
def hiddenBit : Nat := 0x10000000000000

/-- Which of two equally near digits is taken. -/
inductive Tie where
  | up
  | even
deriving DecidableEq, Repr

/-- A positive real with the interval of the reals that round to it. All three are fractions
over one denominator. -/
structure Neighborhood where
  low : Nat
  value : Nat
  high : Nat
  denominator : Nat
  closed : Bool
deriving DecidableEq, Repr

namespace Neighborhood

/-- The neighborhood of the double with the given bits, sign bit and infinity left out. Below
a power of two the doubles lie twice as close as above it, the least normal one apart. -/
def ofBits (magnitude : Nat) : Neighborhood :=
  let field := magnitude / hiddenBit
  let mantissa := magnitude % hiddenBit + (if field = 0 then 0 else hiddenBit)
  let quarters := Nat.pow 2 (field - 1)
  { low := (4 * mantissa - (if mantissa = hiddenBit ∧ 1 < field then 1 else 2)) * quarters
    value := 4 * mantissa * quarters
    high := (4 * mantissa + 2) * quarters
    denominator := Nat.pow 2 1076
    closed := mantissa % 2 = 0 }

/-- The point of the grid of step `10 ^ step` that lies in the interval and is nearest to the
value, as a multiple of the step. -/
def onGrid? (n : Neighborhood) (tie : Tie) (step : Int) : Option Nat :=
  let unit := n.denominator * Nat.pow 10 step.toNat
  let scale := Nat.pow 10 (-step).toNat
  let below := n.value * scale / unit
  let twice := 2 * (n.value * scale - below * unit)
  let nearerAbove := unit < twice || (unit = twice && (tie = .up || below % 2 = 1))
  match fits unit scale below, fits unit scale (below + 1) with
  | true, true => some (if nearerAbove then below + 1 else below)
  | true, false => some below
  | false, true => some (below + 1)
  | false, false => none
where
  fits (unit scale point : Nat) : Bool :=
    if n.closed then n.low * scale ≤ point * unit && point * unit ≤ n.high * scale
    else n.low * scale < point * unit && point * unit < n.high * scale

/-- The power of ten with `10 ^ (k - 1) ≤ value < 10 ^ k`. -/
def magnitude (n : Neighborhood) : Int :=
  if n.denominator ≤ n.value then (Nat.toDigits 10 (n.value / n.denominator)).length
  else
    let zeros := (Nat.toDigits 10 (n.denominator / n.value)).length
    if n.denominator ≤ n.value * Nat.pow 10 (zeros - 1) then 2 - (zeros : Int) else 1 - zeros

/-- Seventeen digits always suffice, so the last alternative is never taken. -/
def shortest (n : Neighborhood) (tie : Tie) : Decimal :=
  let found := (List.range 17).findSome? fun (extra : Nat) =>
    let step := n.magnitude - 1 - extra
    (n.onGrid? tie step).map fun digits => ({ digits, exponent := step } : Decimal)
  found.getD { digits := n.value / n.denominator, exponent := 0 }

end Neighborhood

end Interop
