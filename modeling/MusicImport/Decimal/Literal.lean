import MusicImport.Text.Blank

/-! Numbers as people write them: signs, points, exponents, and the names of infinity and of what is
no number. Doubles are the nearest to what is written. -/
namespace MusicImport.Decimal

/-- The sign in front of a numeral, and what follows it. -/
def takeSign : List Char → Bool × List Char
  | '-' :: cs => (true, cs)
  | '+' :: cs => (false, cs)
  | cs => (false, cs)

/-- A whole number: an optional sign and digits. -/
def integer? (s : String) : Option Int :=
  let (negative, cs) := takeSign s.toList
  (Text.digits? cs).map fun n => if negative then -n else n

/-- A whole number without a minus sign. -/
def natural? (s : String) : Option Nat :=
  match s.toList with
  | '+' :: cs => Text.digits? cs
  | cs => Text.digits? cs

/-- The double nearest to digits times a power of ten. -/
def nearest (digits : List Char) (exponent : Int) : Float :=
  let digits := digits.dropWhile (· == '0')
  let top : Int := digits.length + exponent
  if digits.isEmpty || top < -400 then 0.0
  else if 400 < top then 1.0 / 0.0
  else Float.ofScientific ((Text.digits? digits).getD 0) (exponent < 0) exponent.natAbs

/-- The exponent of a numeral, zero where there is none. -/
def exponent? : List Char → Option Int
  | [] => some 0
  | 'e' :: cs | 'E' :: cs => integer? (String.ofList cs)
  | _ => none

/-- A double without its sign: digits with an optional point and an optional exponent. -/
def magnitude? (cs : List Char) : Option Float :=
  let whole := cs.takeWhile Char.isDigit
  let rest := cs.dropWhile Char.isDigit
  let (fraction, rest) :=
    match rest with
    | '.' :: more => (more.takeWhile Char.isDigit, more.dropWhile Char.isDigit)
    | _ => ([], rest)
  if whole.isEmpty && fraction.isEmpty then none
  else (exponent? rest).map fun e => nearest (whole ++ fraction) (e - fraction.length)

/-- A double; infinity and what is no number go by name, in any case. -/
def float? (s : String) : Option Float :=
  let (negative, cs) := takeSign s.toList
  let name := String.ofList (cs.map Char.toLower)
  let magnitude :=
    if name = "inf" || name = "infinity" then some (1.0 / 0.0)
    else if name = "nan" then some (0.0 / 0.0)
    else magnitude? cs
  magnitude.map fun m => if negative then -m else m

end MusicImport.Decimal
