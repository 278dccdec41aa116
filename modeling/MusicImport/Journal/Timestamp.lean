import MusicImport.Text.Blank

/-! Points in time in UTC, written as in RFC 3339 and read with some freedom: blanks before each
part, one or two digits, a blank for the letter T, and any offset from UTC. -/
namespace MusicImport

/-- A point in time by the calendar of UTC. The second 60 is a leap second. -/
structure Timestamp where
  year : Int
  month : Nat
  day : Nat
  hour : Nat
  minute : Nat
  second : Nat
  nano : Nat
deriving DecidableEq

namespace Timestamp

def isLeap (year : Int) : Bool := year % 4 == 0 && (year % 100 != 0 || year % 400 == 0)

def daysInMonth (year : Int) (month : Nat) : Nat :=
  if month = 2 then if isLeap year then 29 else 28
  else if month = 4 || month = 6 || month = 9 || month = 11 then 30
  else 31

/-- The years that a calendar date can have. -/
def minYear : Int := -262143

def maxYear : Int := 262142

/-- A date of the calendar and a time of day. -/
def isValid (t : Timestamp) : Bool :=
  minYear ≤ t.year && t.year ≤ maxYear && 1 ≤ t.month && t.month ≤ 12 && 1 ≤ t.day &&
    t.day ≤ daysInMonth t.year t.month && t.hour < 24 && t.minute < 60 && t.second ≤ 60 &&
    t.nano < 1000000000

def nextDay (t : Timestamp) : Timestamp :=
  if t.day < daysInMonth t.year t.month then { t with day := t.day + 1 }
  else if t.month < 12 then { t with month := t.month + 1, day := 1 }
  else { t with year := t.year + 1, month := 1, day := 1 }

def previousDay (t : Timestamp) : Timestamp :=
  if 1 < t.day then { t with day := t.day - 1 }
  else if 1 < t.month then
    { t with month := t.month - 1, day := daysInMonth t.year (t.month - 1) }
  else { t with year := t.year - 1, month := 12, day := 31 }

/-- The same wall clock some minutes earlier, by less than a day either way. -/
def minusMinutes (t : Timestamp) (offset : Int) : Timestamp :=
  let minutes : Int := (t.hour : Int) * 60 + t.minute - offset
  let t : Timestamp :=
    if minutes < 0 then t.previousDay else if 1440 ≤ minutes then t.nextDay else t
  let ofDay := (minutes % 1440).toNat
  { t with hour := ofDay / 60, minute := ofDay % 60 }

/-- The first moment of 1970. -/
def epoch : Timestamp :=
  { year := 1970, month := 1, day := 1, hour := 0, minute := 0, second := 0, nano := 0 }

/-- The point in time some nanoseconds after the first moment of 1970. -/
def ofNanoseconds (n : Nat) : Timestamp :=
  let seconds := n / 1000000000
  let ofDay := seconds % 86400
  { Nat.repeat nextDay (seconds / 86400) epoch with
    hour := ofDay / 3600, minute := ofDay / 60 % 60, second := ofDay % 60
    nano := n % 1000000000 }

def skipBlanks (cs : List Char) : List Char := cs.dropWhile Text.isBlank

/-- A number of one up to `max` digits. -/
def digitsUpTo? (max : Nat) (cs : List Char) : Option (Nat × List Char) :=
  let ds := (cs.take max).takeWhile Char.isDigit
  (Text.digits? ds).map fun n => (n, cs.drop ds.length)

/-- A number behind blanks. -/
def field? (max : Nat) (cs : List Char) : Option (Nat × List Char) :=
  digitsUpTo? max (skipBlanks cs)

/-- A year has up to four digits, or any number of them behind a sign. -/
def year? (cs : List Char) : Option (Int × List Char) :=
  match skipBlanks cs with
  | '-' :: cs => (digitsUpTo? cs.length cs).map fun (n, rest) => (-(n : Int), rest)
  | '+' :: cs => (digitsUpTo? cs.length cs).map fun (n, rest) => ((n : Int), rest)
  | cs => (digitsUpTo? 4 cs).map fun (n, rest) => ((n : Int), rest)

/-- The text behind a mark that may have blanks before it. -/
def mark? (c : Char) (cs : List Char) : Option (List Char) :=
  match skipBlanks cs with
  | d :: rest => if d = c then some rest else none
  | [] => none

/-- The letter between date and time, in either case, or a blank. -/
def dateEnd? : List Char → Option (List Char)
  | c :: rest => if c = 'T' || c = 't' || c = ' ' then some rest else none
  | [] => none

/-- Nanoseconds of a decimal fraction; digits beyond the ninth are passed over. -/
def fraction? : List Char → Option (Nat × List Char)
  | '.' :: cs =>
    match digitsUpTo? 9 cs with
    | none => none
    | some (n, rest) =>
      let used := cs.length - rest.length
      some (n * Nat.pow 10 (9 - used), rest.dropWhile Char.isDigit)
  | cs => some (0, cs)

/-- Two digits. -/
def twoDigits? : List Char → Option (Nat × List Char)
  | a :: b :: rest => (Text.digits? [a, b]).map fun n => (n, rest)
  | _ => none

/-- Minutes ahead of UTC: none, or a sign, hours and minutes. -/
def offset? (cs : List Char) : Option (Int × List Char) :=
  match cs with
  | [] => none
  | c :: rest =>
    if (cs.take 3).map Char.toUpper = ['U', 'T', 'C'] then some (0, cs.drop 3)
    else if c = 'Z' || c = 'z' then some (0, rest)
    else if c = '+' || c = '-' || c.toNat = 0x2212 then
      match twoDigits? rest with
      | none => none
      | some (hours, rest) =>
        match twoDigits? (rest.dropWhile fun c => c = ':' || Text.isBlank c) with
        | none => none
        | some (minutes, rest) =>
          if minutes < 60 && hours < 24 then
            let total : Int := hours * 60 + minutes
            some (if c = '+' then total else -total, rest)
          else none
    else none

/-- Reads a point in time and takes it to UTC. -/
def ofChars? (cs : List Char) : Option Timestamp := do
  let (year, cs) ← year? cs
  let cs ← mark? '-' cs
  let (month, cs) ← field? 2 cs
  let cs ← mark? '-' cs
  let (day, cs) ← field? 2 cs
  let cs ← dateEnd? cs
  let (hour, cs) ← field? 2 cs
  let cs ← mark? ':' cs
  let (minute, cs) ← field? 2 cs
  let cs ← mark? ':' cs
  let (second, cs) ← field? 2 cs
  let (nano, cs) ← fraction? cs
  let (offset, cs) ← offset? (skipBlanks cs)
  let t : Timestamp := ⟨year, month, day, hour, minute, second, nano⟩
  if t.isValid && (skipBlanks cs).isEmpty then some (t.minusMinutes offset) else none

def ofText? (s : String) : Option Timestamp := ofChars? s.toList

/-- A number with zeros in front up to a width. -/
def padded (width n : Nat) : List Char :=
  let ds := (toString n).toList
  List.replicate (width - ds.length) '0' ++ ds

/-- Four digits, or a sign and as many as it takes. -/
def yearChars (year : Int) : List Char :=
  if 0 ≤ year && year ≤ 9999 then padded 4 year.toNat
  else (if year < 0 then '-' else '+') :: padded 4 year.natAbs

/-- No, three, six or nine digits behind the second. -/
def fractionChars (nano : Nat) : List Char :=
  if nano = 0 then []
  else if nano % 1000000 = 0 then '.' :: padded 3 (nano / 1000000)
  else if nano % 1000 = 0 then '.' :: padded 6 (nano / 1000)
  else '.' :: padded 9 nano

def toChars (t : Timestamp) : List Char :=
  yearChars t.year ++ '-' :: padded 2 t.month ++ '-' :: padded 2 t.day ++ 'T' ::
    padded 2 t.hour ++ ':' :: padded 2 t.minute ++ ':' :: padded 2 t.second ++
    fractionChars t.nano ++ ['Z']

def text (t : Timestamp) : String := String.ofList t.toChars

end Timestamp
end MusicImport
