/-! A double as an exact number: a sign, a mantissa and a power of two. -/
namespace MusicImport.Decimal

/-- The number `mantissa · 2 ^ exponent`, negated if `negative`. -/
structure Dyadic where
  negative : Bool
  mantissa : Nat
  exponent : Int

/-- What the bits of a double stand for. -/
inductive Reading
  | nan
  | infinite (negative : Bool)
  | finite (value : Dyadic)

/-- Sign, biased exponent and fraction, in this order from the top bit down. -/
def Reading.ofBits (bits : Nat) : Reading :=
  let negative := bits / Nat.pow 2 63 % 2 == 1
  let biased : Nat := bits / Nat.pow 2 52 % Nat.pow 2 11
  let fraction : Nat := bits % Nat.pow 2 52
  if biased = 2047 then
    if fraction = 0 then .infinite negative else .nan
  else if biased = 0 then .finite ⟨negative, fraction, -1074⟩
  else .finite ⟨negative, Nat.pow 2 52 + fraction, Int.ofNat biased - 1075⟩

def Reading.ofFloat (x : Float) : Reading := .ofBits x.toBits.toNat

/-- A quotient rounded to the nearest whole number, a half to the even neighbour. -/
def roundHalfEven (num den : Nat) : Nat :=
  let q := num / den
  let r := num % den
  if 2 * r > den ∨ (2 * r = den ∧ q % 2 = 1) then q + 1 else q

/-- The rounded quotient is at most half a unit away. -/
theorem roundHalfEven_near (num den : Nat) (h : 0 < den) :
    2 * num ≤ 2 * den * roundHalfEven num den + den ∧
      2 * den * roundHalfEven num den ≤ 2 * num + den := by
  have hdm := Nat.div_add_mod num den
  have hlt := Nat.mod_lt num h
  unfold roundHalfEven
  simp only
  generalize num / den = q at *
  generalize num % den = r at *
  have h2 : 2 * den * q = 2 * (den * q) := by rw [Nat.mul_assoc]
  split
  · have h3 : 2 * den * (q + 1) = 2 * (den * q) + 2 * den := by
      rw [Nat.mul_add, h2, Nat.mul_one]
    omega
  · omega

/-- The magnitude times `10 ^ places`, to the nearest whole number. -/
def Dyadic.scaled (d : Dyadic) (places : Nat) : Nat :=
  let n := d.mantissa * Nat.pow 10 places
  if d.exponent < 0 then roundHalfEven n (Nat.pow 2 (-d.exponent).toNat)
  else n * Nat.pow 2 d.exponent.toNat

end MusicImport.Decimal
