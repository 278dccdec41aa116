import MusicImport.Decimal.Scan

/-! JSON values. Numbers keep their numeral, so that each reader decides what it is read as. -/
namespace MusicImport

/-- A JSON value. `broken` stands where an escape names no character: such a value may be passed
over, and nothing reads it. -/
inductive Json
  | null
  | bool (value : Bool)
  | number (numeral : Decimal.Numeral)
  | text (value : String)
  | broken
  | array (items : List Json)
  | object (members : List (String × Json))

namespace Json

/-- Decimal digits, most significant first. -/
def digitsOf (n : Nat) : List Nat := (Nat.toDigits 10 n).map fun c => c.toNat - '0'.toNat

/-- The number that digits stand for. -/
def ofDigits (ds : List Nat) : Nat := ds.foldl (fun n d => 10 * n + d) 0

def ofInt (n : Int) : Json := .number ⟨n < 0, digitsOf n.natAbs, [], none⟩

def ofNat (n : Nat) : Json := .ofInt n

/-- An optional value, absent as null. -/
def ofOption {α : Type} (f : α → Json) : Option α → Json
  | none => .null
  | some a => f a

def ofList {α : Type} (f : α → Json) (xs : List α) : Json := .array (xs.map f)

/-- The whole number of a numeral without point or exponent. Minus zero is no whole number. -/
def wholeNumber? (n : Decimal.Numeral) : Option Int :=
  if n.fraction.isEmpty && n.exponent.isNone then
    let v := ofDigits n.whole
    if n.negative then if v = 0 then none else some (-(v : Int)) else some v
  else none

/-- A whole number in the given range. -/
def int? (low high : Int) : Json → Option Int
  | .number n =>
    match wholeNumber? n with
    | some v => if low ≤ v ∧ v ≤ high then some v else none
    | none => none
  | _ => none

def nat? (bits : Nat) (j : Json) : Option Nat := (j.int? 0 (Nat.pow 2 bits - 1 : Nat)).map Int.toNat

def float? : Json → Option Float
  | .number n => n.toFloat?
  | _ => none

def text? : Json → Option String
  | .text s => some s
  | _ => none

def bool? : Json → Option Bool
  | .bool b => some b
  | _ => none

def items? : Json → Option (List Json)
  | .array xs => some xs
  | _ => none

/-- Every element read by `f`. -/
def list? {α : Type} (f : Json → Option α) (j : Json) : Option (List α) :=
  j.items?.bind (·.mapM f)

/-- Null as absence. -/
def optional? {α : Type} (f : Json → Option α) : Json → Option (Option α)
  | .null => some none
  | j => (f j).map some

/-- The value of a member; null where there is none. -/
def member : Json → String → Json
  | .object ms, name => ((ms.find? (·.1 == name)).map (·.2)).getD .null
  | _, _ => .null

end Json
end MusicImport
