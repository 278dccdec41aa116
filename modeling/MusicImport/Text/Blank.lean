import MusicImport.Text.CharSet

/-! White space, control characters and decimal digits, and trimming by a class. -/
namespace MusicImport.Text

/-- Code points with the property of white space. -/
def blankRanges : CharSet :=
  [(0x9, 0xD), (0x20, 0x20), (0x85, 0x85), (0xA0, 0xA0), (0x1680, 0x1680), (0x2000, 0x200A),
   (0x2028, 0x2029), (0x202F, 0x202F), (0x205F, 0x205F), (0x3000, 0x3000)]

/-- White space in any script, line ends and the no-break space among it. -/
def isBlank (c : Char) : Bool := blankRanges.contains c.toNat

/-- The control characters: the two blocks of 32 and the delete character. -/
def isControl (c : Char) : Bool := c.toNat < 0x20 || (0x7F ≤ c.toNat && c.toNat ≤ 0x9F)

/-- Drops the characters of a class from the end. -/
def dropEndWhile (p : Char → Bool) (cs : List Char) : List Char :=
  (cs.reverse.dropWhile p).reverse

/-- Drops white space at both ends. -/
def trimChars (cs : List Char) : List Char := dropEndWhile isBlank (cs.dropWhile isBlank)

/-- A text without the white space at its ends. -/
def trim (s : String) : String := String.ofList (trimChars s.toList)

/-- Reads a numeral of ASCII digits; anything else, and the empty text, is none. -/
def digits? (cs : List Char) : Option Nat :=
  if cs.isEmpty || !cs.all Char.isDigit then none
  else some (cs.foldl (fun n c => 10 * n + (c.toNat - '0'.toNat)) 0)

/-- Text of at least two digits. -/
def twoDigits (n : Nat) : String :=
  let t := toString n
  if t.length < 2 then "0" ++ t else t

end MusicImport.Text
