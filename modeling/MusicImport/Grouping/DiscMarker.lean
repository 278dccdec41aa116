import MusicImport.Decimal.Scan
import MusicImport.Text.Blank
import MusicImport.Text.Normal
import MusicImport.Text.WordChar

/-! Directory names that say which disc of an album they hold: a prefix, a marker word, a number
and closing brackets, with separators between them. -/
namespace MusicImport

/-- A directory name read as a disc: the text in front of the marker, and the disc number. -/
structure DiscMarker where
  /-- Everything before the separators in front of the marker word, as written. -/
  rawPrefix : List Char
  digits : List Char
deriving DecidableEq

namespace DiscMarker

/-- Blanks, dots, underscores and hyphens. -/
def isGap (c : Char) : Bool := Text.isBlank c || c = '.' || c = '_' || c = '-'

/-- What may stand between the prefix and the marker word. -/
def isSeparator (c : Char) : Bool := isGap c || c = '[' || c = '('

def isClosing (c : Char) : Bool := c = ']' || c = ')'

/-- Whether a character stands for a small ASCII letter in any case. The long s and the sign of
the unit kelvin are forms of s and k. -/
def matchesLetter (letter c : Char) : Bool :=
  c.toLower = letter || (letter = 's' && c.toNat = 0x17F) || (letter = 'k' && c.toNat = 0x212A)

/-- The text behind a word that it starts with, in any case. -/
def afterWord? : List Char → List Char → Option (List Char)
  | [], cs => some cs
  | l :: ls, c :: cs => if matchesLetter l c then afterWord? ls cs else none
  | _ :: _, [] => none

/-- The words that mark a disc. A longer word stands before its own beginning. -/
def words : List String := ["disc", "disk", "cd", "part", "volume", "vol"]

/-- The number behind the marker word, if nothing but closing brackets and blanks follows it. -/
def number? (cs : List Char) : Option (List Char) :=
  let cs := cs.dropWhile isGap
  let digits := cs.takeWhile Text.isDecimal
  let tail := ((cs.dropWhile Text.isDecimal).dropWhile isClosing).dropWhile Text.isBlank
  if digits.isEmpty || !tail.isEmpty then none else some digits

/-- The number in a text that is read from the separators on; `last` is the character before
it. The marker word has to start a word. -/
def markerNumber? (last : Option Char) (cs : List Char) : Option (List Char) :=
  let separators := cs.takeWhile isSeparator
  let rest := cs.dropWhile isSeparator
  if ((separators.getLast?).or last).any Text.isWordChar then none
  else words.findSome? fun w => (afterWord? w.toList rest).bind number?

/-- The shortest prefix without a line end behind which a marker follows. -/
def scan? (last : Option Char) : List Char → Option DiscMarker
  | [] => none
  | c :: cs =>
    match markerNumber? last (c :: cs) with
    | some digits => some ⟨[], digits⟩
    | none =>
      if c = '\n' then none
      else (scan? (some c) cs).map fun m => { m with rawPrefix := c :: m.rawPrefix }

def ofName? (name : String) : Option DiscMarker := scan? none name.toList

/-- The disc number; only ASCII digits below `2 ^ 32` count. -/
def number (m : DiscMarker) : Option Nat :=
  (Text.digits? m.digits).bind fun n => if n < word32 then some n else none

/-- The prefix by which discs belong together. -/
def sharedPrefix (m : DiscMarker) : String := Text.normalize (String.ofList m.rawPrefix)

/-- The prefix as written, without blanks around it. -/
def writtenPrefix (m : DiscMarker) : String := Text.trim (String.ofList m.rawPrefix)

end DiscMarker

/-- The shared prefix and the disc number of a directory name. -/
def discOfName? (name : String) : Option (String × Nat) :=
  (DiscMarker.ofName? name).bind fun m => m.number.map fun n => (m.sharedPrefix, n)

end MusicImport
