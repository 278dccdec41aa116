/-! Numbers of a fixed width, and doubles from decimal numerals. The digits that fit 64 bits are taken
as a whole number, which is then scaled by one power of ten; the rounding of each of the two steps is
kept. -/
namespace MusicImport

/-- Numbers without a sign that fit into 32 bits lie below it. -/
def word32 : Nat := 4294967296

/-- Numbers without a sign that fit into 64 bits lie below it. -/
def word64 : Nat := 18446744073709551616

/-- Numbers with a sign that fit into 64 bits lie below it, and not below its negative. -/
def signed64 : Int := 9223372036854775808

namespace Decimal

/-- The parts of a numeral: `whole.fraction` times ten to `exponent`. -/
structure Numeral where
  negative : Bool
  whole : List Nat
  fraction : List Nat
  exponent : Option Int

/-- A significand of at most 64 bits and the power of ten that it is scaled by. -/
structure Significand where
  value : Nat
  exponent : Int
  full : Bool

def Significand.fits (s : Significand) (digit : Nat) : Bool :=
  s.value * 10 + digit < word64

/-- Takes a digit before the point. Once one digit did not fit, all later ones only count. -/
def Significand.pushWhole (s : Significand) (digit : Nat) : Significand :=
  if s.full || !s.fits digit then { s with exponent := s.exponent + 1, full := true }
  else { s with value := s.value * 10 + digit }

/-- Takes the digits after the point, up to the first that does not fit. -/
def Significand.pushFraction : Significand → List Nat → Significand
  | s, [] => s
  | s, digit :: rest =>
    if s.fits digit then
      pushFraction { s with value := s.value * 10 + digit, exponent := s.exponent - 1 } rest
    else s

def Numeral.significand (n : Numeral) : Significand :=
  (n.whole.foldl Significand.pushWhole ⟨0, 0, false⟩).pushFraction n.fraction

/-- Ten to the given power, for powers up to 308. -/
def powerOfTen (e : Nat) : Float := Float.ofScientific 1 false e

/-- Scales by a power of ten; a result beyond the doubles is none. Powers below `-308` are taken
in steps. -/
def scaleByTen (value : Float) (exponent : Int) : Nat → Option Float
  | 0 => some 0.0
  | fuel + 1 =>
    if exponent.natAbs ≤ 308 then
      if 0 ≤ exponent then
        let r := value * powerOfTen exponent.natAbs
        if r.isInf then none else some r
      else some (value / powerOfTen exponent.natAbs)
    else if value == 0.0 then some value
    else if 0 ≤ exponent then none
    else scaleByTen (value / powerOfTen 308) (exponent + 308) fuel

/-- The largest exponent that is read as a number; beyond it only its sign counts. -/
def maxExponent : Int := 2147483647

/-- The double that a numeral is read as; none if it is too large for one. -/
def Numeral.toFloat? (n : Numeral) : Option Float :=
  let s := n.significand
  let explicit := n.exponent.getD 0
  let magnitude :=
    if maxExponent < explicit then if s.value = 0 then some 0.0 else none
    else if explicit < -maxExponent then some 0.0
    else
      let clamped := max (-maxExponent - 1) (min maxExponent (s.exponent + explicit))
      scaleByTen s.value.toUInt64.toFloat clamped 8
  magnitude.map fun m => if n.negative then -m else m

end Decimal
end MusicImport
