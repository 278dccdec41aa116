import MusicImport.Decimal.Dyadic

/-! The fewest decimal digits that read back as the same double, written without an exponent. -/
namespace MusicImport.Decimal

/-- Twice the ends of the interval of reals that round to a positive dyadic, over the unit
`2 ^ (exponent - 2)`: the lower neighbour is nearer when the mantissa is a power of two. -/
structure RoundingInterval where
  low : Nat
  mid : Nat
  high : Nat
  closed : Bool
  exponent : Int

def Dyadic.interval (d : Dyadic) : RoundingInterval :=
  let narrow := d.mantissa == Nat.pow 2 52 && d.exponent > -1074
  { low := 4 * d.mantissa - (if narrow then 1 else 2)
    mid := 4 * d.mantissa
    high := 4 * d.mantissa + 2
    closed := d.mantissa % 2 == 0
    exponent := d.exponent - 2 }

/-- A decimal: `digits · 10 ^ exponent`. -/
structure Scientific where
  digits : Nat
  exponent : Int

/-- Compares `a · 10 ^ e` with `b · 2 ^ q` exactly. -/
def compareScaled (a : Nat) (e : Int) (b : Nat) (q : Int) : Ordering :=
  compare (a * Nat.pow 10 e.toNat * Nat.pow 2 (-q).toNat) (b * Nat.pow 2 q.toNat * Nat.pow 10 (-e).toNat)

def RoundingInterval.contains (i : RoundingInterval) (a : Nat) (e : Int) : Bool :=
  let lo := compareScaled a e i.low i.exponent
  let hi := compareScaled a e i.high i.exponent
  if i.closed then lo != .lt && hi != .gt else lo == .gt && hi == .lt

/-- The largest multiple of `10 ^ e` that is not above the middle. -/
def RoundingInterval.floorAt (i : RoundingInterval) (e : Int) : Nat :=
  (i.mid * Nat.pow 2 i.exponent.toNat * Nat.pow 10 (-e).toNat) /
    (Nat.pow 10 e.toNat * Nat.pow 2 (-i.exponent).toNat)

/-- On the grid of multiples of `10 ^ e`, the neighbour of the middle that rounds back to it;
of two the nearer, and of two as near the even one. -/
def RoundingInterval.hitAt? (i : RoundingInterval) (e : Int) : Option Nat :=
  let n := i.floorAt e
  match i.contains n e, i.contains (n + 1) e with
  | true, false => some n
  | false, true => some (n + 1)
  | false, false => none
  | true, true =>
    match compareScaled (2 * n + 1) e (2 * i.mid) i.exponent with
    | .gt => some n
    | .lt => some (n + 1)
    | .eq => some (if n % 2 = 0 then n else n + 1)

/-- Coarsest grid first; 342 grids reach below the least double. -/
def RoundingInterval.search (i : RoundingInterval) : Int → Nat → Scientific
  | e, 0 => ⟨i.floorAt e, e⟩
  | e, fuel + 1 =>
    match i.hitAt? e with
    | some n => if n = 0 then search i (e - 1) fuel else ⟨n, e⟩
    | none => search i (e - 1) fuel

/-- The shortest decimal of a positive dyadic. -/
def Dyadic.shortest (d : Dyadic) : Scientific := d.interval.search 309 700

/-- A decimal in positional notation, without a point when it is whole. -/
def Scientific.positional (s : Scientific) : String :=
  if 0 ≤ s.exponent then toString (s.digits * Nat.pow 10 s.exponent.toNat)
  else
    let places := (-s.exponent).toNat
    let whole := s.digits / Nat.pow 10 places
    let part := toString (s.digits % Nat.pow 10 places)
    toString whole ++ "." ++ String.ofList (List.replicate (places - part.length) '0') ++ part

/-- The shortest text of a double that reads back: `1`, `0.25`, `NaN`, `-inf`. -/
def shortestText (x : Float) : String :=
  match Reading.ofFloat x with
  | .nan => "NaN"
  | .infinite negative => (if negative then "-" else "") ++ "inf"
  | .finite d =>
    (if d.negative then "-" else "") ++
      if d.mantissa = 0 then "0" else d.shortest.positional

end MusicImport.Decimal
