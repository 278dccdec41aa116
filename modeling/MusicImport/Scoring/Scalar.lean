import MusicImport.Decimal.Scan

/-! The arithmetic that scores are computed in: doubles when the library runs, and rational
numbers where rounding is to be left out. -/
namespace MusicImport

/-- Numbers with a division, comparisons that a missing number fails, and a total order. -/
class Scalar (α : Type) extends Add α, Sub α, Mul α, Div α where
  ofNat : Nat → α
  lt : α → α → Bool
  le : α → α → Bool
  isFinite : α → Bool
  isNaN : α → Bool
  /-- Stands for a cost that is no number. -/
  huge : α
  /-- A total order of all values, the one by which results are sorted. -/
  order : α → α → Ordering

namespace Scalar
variable {α : Type} [Scalar α]

abbrev zero : α := ofNat 0
abbrev one : α := ofNat 1

/-- The smaller of two; a missing number gives way to the other. -/
def min (a b : α) : α := if isNaN a then b else if isNaN b then a else if lt b a then b else a

/-- The larger of two; a missing number gives way to the other. -/
def max (a b : α) : α := if isNaN a then b else if isNaN b then a else if lt a b then b else a

/-- The nearest value between zero and one. A missing number stays. -/
def clamp (a : α) : α := if lt a zero then zero else if lt one a then one else a

/-- Between zero and one; a missing number counts as one. -/
def unit (a : α) : α := if isNaN a then one else clamp a

/-- A finite value above zero, else zero. -/
def nonnegative (a : α) : α := if isFinite a && lt zero a then a else zero

end Scalar

/-- The place of a double in the order of all doubles: by value, minus zero before zero, and
the numbers that are none at the ends by their sign. -/
def Scalar.bitsRank (bits : Nat) : Int :=
  if bits < signed64 then bits else signed64 - 1 - bits

instance : Scalar Float where
  ofNat n := n.toUInt64.toFloat
  lt a b := a < b
  le a b := a ≤ b
  isFinite := Float.isFinite
  isNaN := Float.isNaN
  huge := Float.ofBits 0x7FCFFFFFFFFFFFFF
  order a b := compare (Scalar.bitsRank a.toBits.toNat) (Scalar.bitsRank b.toBits.toNat)

instance : Scalar Rat where
  ofNat n := n
  lt a b := a < b
  le a b := a ≤ b
  isFinite _ := true
  isNaN _ := false
  huge := (Nat.pow 2 1022 : Nat)
  order a b := if a < b then .lt else if a = b then .eq else .gt

end MusicImport
