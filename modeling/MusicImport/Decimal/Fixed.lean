import MusicImport.Decimal.Dyadic

/-! Numbers written with a fixed count of decimals, rounded once from the exact value. -/
namespace MusicImport.Decimal

/-- Pads with zeros on the left. -/
def zeroPadded (width n : Nat) : String :=
  let t := toString n
  String.ofList (List.replicate (width - t.length) '0') ++ t

/-- A whole number of units `10 ^ -places`, with its point. -/
def pointed (places units : Nat) : String :=
  if places = 0 then toString units
  else toString (units / Nat.pow 10 places) ++ "." ++ zeroPadded places (units % Nat.pow 10 places)

/-- How numbers that are no finite number are spelt, and whether zero keeps its sign. -/
structure FixedStyle where
  places : Nat
  nan : String
  infinity : String
  signedZero : Bool

/-- A double with the decimals of the style; a tie goes to the even neighbour. -/
def FixedStyle.text (style : FixedStyle) (x : Float) : String :=
  match Reading.ofFloat x with
  | .nan => style.nan
  | .infinite negative => (if negative then "-" else "") ++ style.infinity
  | .finite d =>
    let units := d.scaled style.places
    let signed := d.negative && (style.signedZero || units != 0)
    (if signed then "-" else "") ++ pointed style.places units

end MusicImport.Decimal
