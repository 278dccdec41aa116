import MusicImport.Json.Basic

/-! Reading JSON text. A step takes the text that is left and returns a value with what remains
after it; `Json.parse?` takes the whole text. -/
namespace MusicImport.Json

/-- The blanks allowed between the parts of a value. -/
def isGap (c : Char) : Bool := c == ' ' || c == '\n' || c == '\t' || c == '\r'

def skipGaps (cs : List Char) : List Char := cs.dropWhile isGap

/-- The value of a hexadecimal digit. -/
def hexDigit? (c : Char) : Option Nat :=
  if '0' ≤ c ∧ c ≤ '9' then some (c.toNat - '0'.toNat)
  else if 'a' ≤ c ∧ c ≤ 'f' then some (c.toNat - 'a'.toNat + 10)
  else if 'A' ≤ c ∧ c ≤ 'F' then some (c.toNat - 'A'.toNat + 10)
  else none

/-- The code unit of four hexadecimal digits. -/
def codeUnit? (a b c d : Char) : Option Nat := do
  return (((← hexDigit? a) * 16 + (← hexDigit? b)) * 16 + (← hexDigit? c)) * 16 + (← hexDigit? d)

/-- The character that a short escape stands for. -/
def shortEscape? : Char → Option Char
  | '"' => some '"'
  | '\\' => some '\\'
  | '/' => some '/'
  | 'b' => some '\x08'
  | 'f' => some '\x0c'
  | 'n' => some '\n'
  | 'r' => some '\r'
  | 't' => some '\t'
  | _ => none

/-- The code units of a string up to its closing quote, last first, and the text behind it. -/
def scanString (units : List Nat) : List Char → Option (List Nat × List Char)
  | [] => none
  | '"' :: rest => some (units, rest)
  | '\\' :: 'u' :: a :: b :: c :: d :: rest =>
    match codeUnit? a b c d with
    | some u => scanString (u :: units) rest
    | none => none
  | '\\' :: e :: rest =>
    match shortEscape? e with
    | some c => scanString (c.toNat :: units) rest
    | none => none
  | c :: rest => if c.toNat < 0x20 then none else scanString (c.toNat :: units) rest

/-- Characters of code units: a high surrogate joins the low one behind it, and neither stands
alone. -/
def charsOfUnits : List Nat → Option (List Char)
  | [] => some []
  | u :: rest =>
    if 0xDC00 ≤ u ∧ u ≤ 0xDFFF then none
    else if 0xD800 ≤ u ∧ u ≤ 0xDBFF then
      match rest with
      | v :: rest =>
        if 0xDC00 ≤ v ∧ v ≤ 0xDFFF then
          (charsOfUnits rest).map
            (Char.ofNat (0x10000 + (u - 0xD800) * 0x400 + (v - 0xDC00)) :: ·)
        else none
      | [] => none
    else (charsOfUnits rest).map (Char.ofNat u :: ·)

/-- A string behind its opening quote; the text is none if an escape names no character. -/
def parseString (cs : List Char) : Option (Option String × List Char) :=
  (scanString [] cs).map fun (units, rest) =>
    ((charsOfUnits units.reverse).map String.ofList, rest)

/-- The digits at the start, and the text behind them. -/
def scanDigits (cs : List Char) : List Nat × List Char :=
  ((cs.takeWhile Char.isDigit).map fun c => c.toNat - '0'.toNat, cs.dropWhile Char.isDigit)

/-- The part of a number behind its point, if there is a point. -/
def scanFraction : List Char → Option (List Nat × List Char)
  | '.' :: cs =>
    let (ds, rest) := scanDigits cs
    if ds.isEmpty then none else some (ds, rest)
  | cs => some ([], cs)

/-- The exponent of a number, if there is one. -/
def scanExponent : List Char → Option (Option Int × List Char)
  | e :: cs =>
    if e = 'e' ∨ e = 'E' then
      let (negative, cs) : Bool × List Char :=
        match cs with
        | '-' :: cs => (true, cs)
        | '+' :: cs => (false, cs)
        | cs => (false, cs)
      let (ds, rest) := scanDigits cs
      if ds.isEmpty then none
      else some (some (if negative then -(ofDigits ds : Int) else ofDigits ds), rest)
    else some (none, e :: cs)
  | [] => some (none, [])

/-- A number. Only zero starts with a zero. -/
def parseNumber (cs : List Char) : Option (Decimal.Numeral × List Char) := do
  let (negative, cs) : Bool × List Char :=
    match cs with
    | '-' :: cs => (true, cs)
    | cs => (false, cs)
  let (whole, cs) := scanDigits cs
  if whole.isEmpty || (whole.head? == some 0 && whole.length > 1) then none
  else
    let (fraction, cs) ← scanFraction cs
    let (exponent, cs) ← scanExponent cs
    return (⟨negative, whole, fraction, exponent⟩, cs)

/-- The text behind a word. -/
def expect? : List Char → List Char → Option (List Char)
  | [], cs => some cs
  | w :: ws, c :: cs => if w = c then expect? ws cs else none
  | _ :: _, [] => none

mutual

/-- A value and the text behind it. The fuel bounds the nesting. -/
def parseValue : Nat → List Char → Option (Json × List Char)
  | 0, _ => none
  | fuel + 1, cs =>
    match skipGaps cs with
    | '{' :: cs =>
      match skipGaps cs with
      | '}' :: rest => some (.object [], rest)
      | cs => (parseMembers fuel cs).map fun (ms, rest) =>
        (match ms.mapM fun (k, v) => k.map fun k => (k, v) with
          | some ms => .object ms
          | none => .broken, rest)
    | '[' :: cs =>
      match skipGaps cs with
      | ']' :: rest => some (.array [], rest)
      | cs => (parseItems fuel cs).map fun (xs, rest) => (.array xs, rest)
    | '"' :: cs => (parseString cs).map fun (s, rest) =>
        (match s with | some s => .text s | none => .broken, rest)
    | 't' :: cs => (expect? "rue".toList cs).map fun rest => (.bool true, rest)
    | 'f' :: cs => (expect? "alse".toList cs).map fun rest => (.bool false, rest)
    | 'n' :: cs => (expect? "ull".toList cs).map fun rest => (.null, rest)
    | cs => (parseNumber cs).map fun (n, rest) => (.number n, rest)

/-- One or more values up to the closing bracket. -/
def parseItems : Nat → List Char → Option (List Json × List Char)
  | 0, _ => none
  | fuel + 1, cs =>
    match parseValue fuel cs with
    | none => none
    | some (v, cs) =>
      match skipGaps cs with
      | ']' :: rest => some ([v], rest)
      | ',' :: cs => (parseItems fuel cs).map fun (vs, rest) => (v :: vs, rest)
      | _ => none

/-- One or more members up to the closing brace. -/
def parseMembers : Nat → List Char → Option (List (Option String × Json) × List Char)
  | 0, _ => none
  | fuel + 1, cs =>
    match skipGaps cs with
    | '"' :: cs =>
      match parseString cs with
      | none => none
      | some (k, cs) =>
        match skipGaps cs with
        | ':' :: cs =>
          match parseValue fuel cs with
          | none => none
          | some (v, cs) =>
            match skipGaps cs with
            | '}' :: rest => some ([(k, v)], rest)
            | ',' :: cs => (parseMembers fuel cs).map fun (ms, rest) => ((k, v) :: ms, rest)
            | _ => none
        | _ => none
    | _ => none

end

/-- The value of a whole text, blanks around it allowed. Every step of nesting takes a character,
so twice the length bounds it. -/
def parse? (text : String) : Option Json :=
  let cs := text.toList
  match parseValue (2 * cs.length + 1) cs with
  | some (v, rest) => if (skipGaps rest).isEmpty then some v else none
  | none => none

end MusicImport.Json
