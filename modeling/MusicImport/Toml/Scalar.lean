import MusicImport.Json.Parser
import MusicImport.Journal.Timestamp
import MusicImport.Settings.Value

/-! Scalars of TOML: the four kinds of strings, numbers, truth values, dates and times. A scanner
takes characters and gives what it read with the rest. -/
namespace MusicImport.Toml

/-- White space within a line. -/
def isGap (c : Char) : Bool := c = ' ' || c = '\t'

def skipGaps (cs : List Char) : List Char := cs.dropWhile isGap

/-- Control characters may not stand in a document, except for the tab and ends of lines. -/
def isAllowed (c : Char) : Bool := c = '\t' || (0x20 ≤ c.toNat && c.toNat ≠ 0x7F)

/-- What follows the end of a line, if the text starts with one. -/
def afterLineEnd? : List Char → Option (List Char)
  | '\n' :: cs => some cs
  | '\r' :: '\n' :: cs => some cs
  | _ => none

/-- The number of hexadecimal digits. -/
def hexNumber? (cs : List Char) : Option Nat :=
  cs.foldlM (fun n c => (Json.hexDigit? c).map (16 * n + ·)) 0

/-- The character of an escape with a code point of the given number of digits. -/
def codePoint? (digits : Nat) (cs : List Char) : Option (Char × List Char) := do
  if cs.length < digits then none
  let n ← hexNumber? (cs.take digits)
  if n.isValidChar then return (Char.ofNat n, cs.drop digits) else none

/-- The character of an escape, after its backslash. -/
def escape? : List Char → Option (Char × List Char)
  | 'b' :: cs => some ('\x08', cs)
  | 't' :: cs => some ('\t', cs)
  | 'n' :: cs => some ('\n', cs)
  | 'f' :: cs => some ('\x0c', cs)
  | 'r' :: cs => some ('\r', cs)
  | '"' :: cs => some ('"', cs)
  | '\\' :: cs => some ('\\', cs)
  | 'u' :: cs => codePoint? 4 cs
  | 'U' :: cs => codePoint? 8 cs
  | _ => none

/-- The rest of a string in one line, up to its quote. -/
def lineString? (quote : Char) : Nat → List Char → Option (List Char × List Char)
  | 0, _ => none
  | _ + 1, [] => none
  | fuel + 1, c :: cs =>
    if c = quote then some ([], cs)
    else if c = '\\' && quote = '"' then do
      let (e, cs) ← escape? cs
      let (s, cs) ← lineString? quote fuel cs
      return (e :: s, cs)
    else if isAllowed c then do
      let (s, cs) ← lineString? quote fuel cs
      return (c :: s, cs)
    else none

/-- White space and ends of lines. -/
def skipBlankLines : Nat → List Char → List Char
  | 0, cs => cs
  | fuel + 1, cs =>
    let cs := skipGaps cs
    match afterLineEnd? cs with
    | some rest => skipBlankLines fuel rest
    | none => cs

/-- What follows a backslash that ends its line: the next character that is no white space. -/
def joined? (cs : List Char) : Option (List Char) :=
  (afterLineEnd? (skipGaps cs)).map fun rest => skipBlankLines (rest.length + 1) rest

/-- The number of quotes that a text starts with. -/
def quoteCount (quote : Char) (cs : List Char) : Nat := (cs.takeWhile (· == quote)).length

/-- The rest of a string of several lines. Up to two quotes may stand before the three that end
it. -/
def longString? (quote : Char) : Nat → List Char → Option (List Char × List Char)
  | 0, _ => none
  | _ + 1, [] => none
  | fuel + 1, c :: cs =>
    let n := quoteCount quote (c :: cs)
    if 3 ≤ n then
      if n ≤ 5 then some (List.replicate (n - 3) quote, (c :: cs).drop n) else none
    else if c = '\\' && quote = '"' then
      match joined? cs with
      | some cs => longString? quote fuel cs
      | none => do
        let (e, cs) ← escape? cs
        let (s, cs) ← longString? quote fuel cs
        return (e :: s, cs)
    else
      match afterLineEnd? (c :: cs) with
      | some cs => do
        let (s, cs) ← longString? quote fuel cs
        return ('\n' :: s, cs)
      | none =>
        if isAllowed c then do
          let (s, cs) ← longString? quote fuel cs
          return (c :: s, cs)
        else none

/-- A string that starts with the given quote, of one line or of several. -/
def string? (quote : Char) (cs : List Char) : Option (String × List Char) :=
  let start := List.replicate 3 quote
  let scanned :=
    if start.isPrefixOf cs then
      let body := cs.drop 3
      longString? quote (body.length + 1) ((afterLineEnd? body).getD body)
    else lineString? quote cs.length (cs.drop 1)
  scanned.map fun (s, rest) => (String.ofList s, rest)

/-- Digits with single underscores between them, which are dropped. -/
def digitRun? (isDigit : Char → Bool) (cs : List Char) : Option (List Char) :=
  if (Text.splitChars '_' cs).all fun run => !run.isEmpty && run.all isDigit then
    some (cs.filter (· != '_'))
  else none

/-- A decimal number without zeros in front. -/
def decimalRun? (cs : List Char) : Option (List Char) := do
  let digits ← digitRun? Char.isDigit cs
  if digits.length = 1 || digits.head? != some '0' then return digits else none

/-- The number of digits in a base. -/
def inBase? (base : Nat) (cs : List Char) : Option Int := do
  let isDigit (c : Char) : Bool := ((Json.hexDigit? c).map fun d => decide (d < base)).getD false
  let digits ← digitRun? isDigit cs
  return digits.foldl (fun n c => (base : Int) * n + ((Json.hexDigit? c).getD 0 : Nat)) 0

/-- A whole number of 64 bits. -/
def int? (cs : List Char) : Option Int := do
  let n ← match cs with
    | '0' :: 'x' :: digits => inBase? 16 digits
    | '0' :: 'o' :: digits => inBase? 8 digits
    | '0' :: 'b' :: digits => inBase? 2 digits
    | cs =>
      let (negative, digits) := Decimal.takeSign cs
      (decimalRun? digits).bind fun ds =>
        (Text.digits? ds).map fun n => if negative then -(n : Int) else n
  if -signed64 ≤ n ∧ n < signed64 then some n else none

/-- The exponent of a number, behind its letter. -/
def exponent? (cs : List Char) : Option Int := do
  let (negative, digits) := Decimal.takeSign cs
  let n ← Text.digits? (← digitRun? Char.isDigit digits)
  return if negative then -(n : Int) else n

/-- A number with a point or an exponent, or the name of one that is not finite. A number above
all finite ones is none. -/
def float? (cs : List Char) : Option Float := do
  let (negative, body) := Decimal.takeSign cs
  let magnitude ←
    if body = "inf".toList then some (1.0 / 0.0)
    else if body = "nan".toList then some (0.0 / 0.0)
    else do
      let isMark (c : Char) : Bool := c = 'e' || c = 'E'
      if !body.any fun c => c = '.' || isMark c then none
      let mantissa := body.takeWhile fun c => !isMark c
      let exponent ← match body.dropWhile fun c => !isMark c with
        | [] => some 0
        | _ :: digits => exponent? digits
      let whole ← decimalRun? (mantissa.takeWhile (· != '.'))
      let fraction ← match mantissa.dropWhile (· != '.') with
        | [] => some []
        | _ :: digits => digitRun? Char.isDigit digits
      let x := Decimal.nearest (whole ++ fraction) (exponent - fraction.length)
      if x.isInf && !negative then none else some x
  return if negative then -magnitude else magnitude

/-- Whether characters have the shape of a pattern, where `0` stands for a digit. -/
def hasShape (pattern : String) (cs : List Char) : Bool :=
  pattern.length = cs.length &&
    (pattern.toList.zip cs).all fun (p, c) => if p = '0' then c.isDigit else p = c

/-- The number of some digits. -/
def numberAt (start count : Nat) (cs : List Char) : Nat :=
  (Text.digits? ((cs.drop start).take count)).getD 0

/-- A date of the calendar. -/
def isDate (cs : List Char) : Bool :=
  let month := numberAt 5 2 cs
  let day := numberAt 8 2 cs
  hasShape "0000-00-00" cs && 1 ≤ month && month ≤ 12 && 1 ≤ day &&
    day ≤ Timestamp.daysInMonth (numberAt 0 4 cs) month

/-- Hours and minutes. -/
def isHourAndMinute (cs : List Char) : Bool :=
  hasShape "00:00" cs && numberAt 0 2 cs ≤ 23 && numberAt 3 2 cs ≤ 59

/-- The text of an offset from UTC; no offset at all has the empty text. -/
def offset? : List Char → Option (List Char)
  | [] => some []
  | ['Z'] | ['z'] => some ['Z']
  | sign :: rest =>
    if (sign = '+' || sign = '-') && isHourAndMinute rest then
      some (if rest = "00:00".toList then "+00:00".toList else sign :: rest)
    else none

/-- The text of a time of day, with an offset from UTC where a date stands before it. Of the
fraction of a second nine digits count, without zeros at the end. -/
def time? (dated : Bool) (cs : List Char) : Option (List Char) := do
  let clock := cs.take 8
  if !(isHourAndMinute (clock.take 5) && hasShape ":00" (clock.drop 5) &&
    numberAt 6 2 clock ≤ 60) then none
  let (fraction, rest) ← match cs.drop 8 with
    | '.' :: rest =>
      let digits := rest.takeWhile Char.isDigit
      if digits.isEmpty then none
      else some (Text.dropEndWhile (· == '0') (digits.take 9), rest.dropWhile Char.isDigit)
    | rest => some ([], rest)
  let offset ← offset? rest
  if !dated && !offset.isEmpty then none
  return clock ++ (if fraction.isEmpty then [] else '.' :: fraction) ++ offset

/-- The text of a date, a time of day, or both with a letter or a blank between them. -/
def dateTime? (cs : List Char) : Option (List Char) :=
  if isDate (cs.take 10) then
    match cs.drop 10 with
    | [] => some cs
    | c :: rest =>
      if c = 'T' || c = 't' || c = ' ' then
        (time? true rest).map fun time => cs.take 10 ++ 'T' :: time
      else none
  else time? false cs

/-- Characters that end a scalar without quotes. -/
def endsScalar (c : Char) : Bool :=
  c = ',' || c = ']' || c = '}' || c = '#' || c = '\n' || c = '\r' || isGap c

/-- A scalar without quotes. A date may have a blank before its time. -/
def bareScalar? (cs : List Char) : Option (Setting × List Char) := do
  let word := cs.takeWhile fun c => !endsScalar c
  let rest := cs.dropWhile fun c => !endsScalar c
  let time := (rest.drop 1).takeWhile fun c => !endsScalar c
  if isDate word && rest.head? = some ' ' && (time? true time).isSome then
    let text ← dateTime? (word ++ ' ' :: time)
    return (.text (String.ofList text), rest.drop (1 + time.length))
  let value ←
    if word = "true".toList then some (.bool true)
    else if word = "false".toList then some (.bool false)
    else
      (((dateTime? word).map fun text => .text (String.ofList text)).or
        ((int? word).map .int)).or ((float? word).map .number)
  return (value, rest)

end MusicImport.Toml
