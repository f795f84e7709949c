/-! Number literals. An integer literal is an optional sign and digits; a decimal literal adds
a fraction and an exponent and denotes the nearest double. -/

namespace Interop

/-- The value of a digit, as far as the radix has it. -/
def digitValue? (radix : Nat) (c : Char) : Option Nat :=
  let value :=
    if '0' ≤ c && c ≤ '9' then c.toNat - '0'.toNat
    else if 'a' ≤ c && c ≤ 'f' then c.toNat - 'a'.toNat + 10
    else if 'A' ≤ c && c ≤ 'F' then c.toNat - 'A'.toNat + 10
    else radix
  if value < radix then some value else none

/-- The number written by a list of digits, when they all are digits. -/
def digitsValue? (radix : Nat) (digits : List Char) : Option Nat :=
  digits.foldlM (fun value c => (digitValue? radix c).map (radix * value + ·)) 0

/-- A sign, if there is one, and what follows it. -/
def splitSign : List Char → Bool × List Char
  | '-' :: rest => (true, rest)
  | '+' :: rest => (false, rest)
  | text => (false, text)

def isSigned64 (value : Int) : Bool :=
  -0x8000000000000000 ≤ value && value < 0x8000000000000000

/-- The negative of an integer of 64 bits, in arithmetic that wraps around: the least integer, whose
negative is out of range, is given again. -/
def wrappingNeg (value : Int) : Int := (-value).bmod 0x10000000000000000

/-- A sign and at least one digit; the value has to fit into 64 bits. -/
def signedLiteral? (radix : Nat) (text : List Char) : Option Int :=
  let (negative, digits) := splitSign text
  if digits.isEmpty then none
  else
    let value := (digitsValue? radix digits).map fun n => if negative then -(n : Int) else n
    value.filter isSigned64

/-- The double nearest to `digits * 10 ^ exponent`. Numbers far beyond the range of doubles
are told by their size alone. -/
def nearestDouble (digits : Nat) (exponent : Int) : Float :=
  let size := exponent + (Nat.toDigits 10 digits).length
  if digits = 0 || size < -400 then 0
  else if 400 < size then Float.ofScientific 1 false 400
  else Float.ofScientific digits (exponent < 0) exponent.natAbs

/-- The exponent of a decimal literal: absent, or a mark, an optional sign and digits. -/
def literalExponent? : List Char → Option Int
  | [] => some 0
  | mark :: rest =>
    if mark = 'e' || mark = 'E' then
      let (negative, digits) := splitSign rest
      if digits.isEmpty then none
      else (digitsValue? 10 digits).map fun n => if negative then -(n : Int) else n
    else none

/-- A sign, digits with at most one point among them, and an exponent. There has to be a
digit before the exponent. -/
def decimalLiteral? (text : List Char) : Option Float := do
  let (negative, unsigned) := splitSign text
  let whole := unsigned.takeWhile Char.isDigit
  let afterWhole := unsigned.dropWhile Char.isDigit
  let (fraction, afterFraction) :=
    match afterWhole with
    | '.' :: rest => (rest.takeWhile Char.isDigit, rest.dropWhile Char.isDigit)
    | rest => ([], rest)
  if whole.isEmpty && fraction.isEmpty then none
  let exponent ← literalExponent? afterFraction
  let digits ← digitsValue? 10 (whole ++ fraction)
  let magnitude := nearestDouble digits (exponent - fraction.length)
  return if negative then -magnitude else magnitude

end Interop
