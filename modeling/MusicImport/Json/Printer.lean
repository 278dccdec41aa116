import MusicImport.Json.Basic

/-! Writing JSON without blanks. Only quotes, backslashes and control characters are escaped, so
a written value never holds a line end. -/
namespace MusicImport.Json

/-- A digit of base sixteen, small letters above nine. -/
def hexChar (n : Nat) : Char := Nat.digitChar n

/-- The character as it stands between the quotes of a string. -/
def escapeChar (c : Char) : List Char :=
  if c = '"' then ['\\', '"']
  else if c = '\\' then ['\\', '\\']
  else if c = '\x08' then ['\\', 'b']
  else if c = '\x0c' then ['\\', 'f']
  else if c = '\n' then ['\\', 'n']
  else if c = '\r' then ['\\', 'r']
  else if c = '\t' then ['\\', 't']
  else if c.toNat < 0x20 then
    ['\\', 'u', '0', '0', hexChar (c.toNat / 16), hexChar (c.toNat % 16)]
  else [c]

def printString (s : String) : List Char := '"' :: (s.toList.flatMap escapeChar ++ ['"'])

def digitChars (ds : List Nat) : List Char := ds.map Nat.digitChar

def printNumber (n : Decimal.Numeral) : List Char :=
  (if n.negative then ['-'] else []) ++ digitChars n.whole ++
    (if n.fraction.isEmpty then [] else '.' :: digitChars n.fraction) ++
    (match n.exponent with
      | none => []
      | some e => 'e' :: (toString e).toList)

mutual

/-- The characters of a value. -/
def print : Json → List Char
  | .null => "null".toList
  | .broken => "null".toList
  | .bool true => "true".toList
  | .bool false => "false".toList
  | .number n => printNumber n
  | .text s => printString s
  | .array items => '[' :: (printItems items ++ [']'])
  | .object members => '{' :: (printMembers members ++ ['}'])

def printItems : List Json → List Char
  | [] => []
  | [v] => print v
  | v :: w :: vs => print v ++ ',' :: printItems (w :: vs)

def printMembers : List (String × Json) → List Char
  | [] => []
  | [(k, v)] => printString k ++ ':' :: print v
  | (k, v) :: m :: ms => printString k ++ ':' :: (print v ++ ',' :: printMembers (m :: ms))

end

/-- The text of a value. -/
def compact (j : Json) : String := String.ofList j.print

end MusicImport.Json
