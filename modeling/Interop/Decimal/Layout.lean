import Interop.Decimal.Shortest

/-! How doubles are written. The digits are the fewest that read back; a layout says which
exponents are written positionally, how the others are marked, and what stands for an
infinite value. -/

namespace Interop

structure FloatLayout where
  /-- The least power of ten for a leading digit of a number written positionally. -/
  leastPositional : Int
  /-- The least power of ten that is too large for it. -/
  positionalEnd : Int := 16
  /-- Stands before an exponent that is not negative. -/
  exponentPlus : String := ""
  tie : Tie
deriving DecidableEq, Repr

/-- Listings, diagnostics and printed forms: positional from 0.0001, and of two equally near
digits the upper one. -/
def FloatLayout.listing : FloatLayout := { leastPositional := -4, tie := .up }

/-- Documents: positional from 0.00001, exponents carry their sign, and ties go to the even
digit. -/
def FloatLayout.document : FloatLayout :=
  { leastPositional := -5, exponentPlus := "+", tie := .even }

/-- The bit of a negative double. -/
def signBit : Nat := 0x8000000000000000

/-- The bits of an infinite double without its sign. No number has larger ones. -/
def infinityBits : Nat := 0x7ff0000000000000

namespace FloatLayout

/-- Writes the digits with a point, `places` of them before it; the gaps are filled with
zeros. -/
def positional (digits : List Char) (places : Int) : List Char :=
  if places ≤ 0 then '0' :: '.' :: (List.replicate (-places).toNat '0' ++ digits)
  else
    let whole := digits.take places.toNat
    let fraction := digits.drop places.toNat
    whole ++ List.replicate (places.toNat - whole.length) '0' ++ '.'
      :: (if fraction.isEmpty then ['0'] else fraction)

def exponential (layout : FloatLayout) (digits : List Char) (exponent : Int) : List Char :=
  let fraction := digits.drop 1
  digits.take 1 ++ (if fraction.isEmpty then [] else '.' :: fraction) ++ 'e'
    :: ((if 0 ≤ exponent then layout.exponentPlus else "-").toList
      ++ Nat.toDigits 10 exponent.natAbs)

/-- The text of a finite magnitude. -/
def magnitudeText (layout : FloatLayout) (bits : Nat) : List Char :=
  if bits = 0 then ['0', '.', '0']
  else
    let decimal := (Neighborhood.ofBits bits).shortest layout.tie
    let written := Nat.toDigits 10 decimal.digits
    let exponent := decimal.exponent + (written.length - 1 : Nat)
    let digits := (written.reverse.dropWhile (· = '0')).reverse
    if layout.leastPositional ≤ exponent && exponent < layout.positionalEnd then
      positional digits (exponent + 1)
    else layout.exponential digits exponent

/-- The text of a double. Infinite values are written `inf`, and what is not a number `NaN`. -/
def text (layout : FloatLayout) (x : Float) : String :=
  let bits := x.toBits.toNat
  let magnitude := bits % signBit
  if infinityBits < magnitude then "NaN"
  else
    let sign := if signBit ≤ bits then "-" else ""
    if magnitude = infinityBits then sign ++ "inf"
    else sign ++ String.ofList (layout.magnitudeText magnitude)

end FloatLayout

/-- Whether a double is infinite or not a number. -/
def isUnbounded (x : Float) : Bool := infinityBits ≤ x.toBits.toNat % signBit

end Interop
