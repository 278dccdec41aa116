import MusicImport.Text.Alphanumeric
import MusicImport.Text.Lowercase

/-! The normal form in which texts are compared: lower case, words only, single spaces. -/
namespace MusicImport.Text

/-- The maximal runs of characters of a class, in order. -/
def runs (p : Char → Bool) : List Char → List (List Char)
  | [] => []
  | c :: cs =>
    if p c then
      match cs, runs p cs with
      | d :: _, r :: rs => if p d then (c :: r) :: rs else [c] :: r :: rs
      | _, rs => [c] :: rs
    else runs p cs

/-- Words joined by single spaces. -/
def joinWords : List (List Char) → List Char
  | [] => []
  | [w] => w
  | w :: ws => w ++ ' ' :: joinWords ws

/-- The words of a text in lower case. -/
def normalWords (s : String) : List (List Char) :=
  runs isAlphanumeric (lowerFrom [] s.toList)

/-- Lower case, everything but letters and numerals read as a separator, words joined by single
spaces. Two texts name the same thing when their normal forms are equal. -/
def normalize (s : String) : String := String.ofList (joinWords (normalWords s))

end MusicImport.Text
