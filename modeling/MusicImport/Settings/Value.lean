import MusicImport.Decimal.Literal
import MusicImport.Decimal.Scan
import MusicImport.Decimal.Shortest
import MusicImport.Text.Lowercase
import MusicImport.Text.Split

/-! Values of settings from files and variables. They are read with some freedom: a text can stand
for a number or a truth value, and either of those for a text. -/
namespace MusicImport

inductive Setting
  | nothing
  | bool (value : Bool)
  | int (value : Int)
  | number (value : Float)
  | text (value : String)
  | list (items : List Setting)
  | table (entries : List (String × Setting))

namespace Setting

/-- The entries of a table; nothing else has any. -/
def entries : Setting → List (String × Setting)
  | .table es => es
  | _ => []

/-- Puts an entry in the place of the one of its name, or at the end. -/
def putEntry (name : String) (value : Setting) (es : List (String × Setting)) :
    List (String × Setting) :=
  if es.any (·.1 == name) then es.map fun e => if e.1 == name then (name, value) else e
  else es ++ [(name, value)]

mutual

/-- A value over another one: tables are combined, anything else takes the place. -/
def onto (value : Setting) (old : Option Setting) : Setting :=
  match value with
  | .table [] => old.getD (.table [])
  | .table (e :: es) => .table (entriesOnto (e :: es) ((old.map entries).getD []))
  | v => v

/-- The entries of a table over those of another. -/
def entriesOnto (new old : List (String × Setting)) : List (String × Setting) :=
  match new with
  | [] => old
  | (name, value) :: rest =>
    entriesOnto rest (putEntry name (onto value (old.lookup name)) old)

end

/-- Puts a value at the end of a path of names, making tables on the way. -/
def put (value : Setting) : (path : List String) → Setting → Setting
  | [], root => root
  | [name], root => .table (putEntry name (value.onto (root.entries.lookup name)) root.entries)
  | name :: rest, root =>
    .table (putEntry name (put value rest ((root.entries.lookup name).getD .nothing)) root.entries)

/-- Characters of a name in a path. -/
def isPathChar (c : Char) : Bool := c.isAlphanum || c = '_' || c = '-'

/-- The path that a key with dots stands for; a key that is no path is one name. -/
def pathOf (key : String) : List String :=
  let names := Text.split '.' key
  if names.all fun n => n != "" && n.toList.all isPathChar then names else [key]

/-- Puts the entries of a file at the paths of their keys. -/
def putAll (es : List (String × Setting)) (root : Setting) : Setting :=
  es.foldl (fun root (key, value) => put value (pathOf key) root) root

/-- The words that stand for truth values, in any case. -/
def truth? (s : String) : Option Bool :=
  let word := Text.lowercase s
  if word = "true" || word = "on" || word = "yes" then some true
  else if word = "false" || word = "off" || word = "no" then some false
  else none

def bool? : Setting → Option Bool
  | .bool v => some v
  | .int v => some (v != 0)
  | .number v => some (v != 0.0)
  | .text s => if s = "1" then some true else if s = "0" then some false else truth? s
  | _ => none

/-- A natural number of 64 bits. Fractions are rounded. -/
def nat? : Setting → Option Nat
  | .bool v => some (if v then 1 else 0)
  | .int v => if 0 ≤ v then some v.toNat else none
  | .number v => some v.round.toUInt64.toNat
  | .text s =>
    match truth? s with
    | some v => some (if v then 1 else 0)
    | none => (Decimal.natural? s).bind fun n => if n < word64 then some n else none
  | _ => none

def float? : Setting → Option Float
  | .bool v => some (if v then 1.0 else 0.0)
  | .int v => some (Float.ofInt v)
  | .number v => some v
  | .text s =>
    match truth? s with
    | some v => some (if v then 1.0 else 0.0)
    | none => Decimal.float? s
  | _ => none

def text? : Setting → Option String
  | .bool v => some (if v then "true" else "false")
  | .int v => some (toString v)
  | .number v => some (Decimal.shortestText v)
  | .text s => some s
  | _ => none

/-- One of several names, in any case; a table with one entry is as good as its name. -/
def name? {α : Type} (choices : List (String × α)) (s : Setting) : Option α :=
  let named (word : String) : Option α :=
    (choices.find? fun (name, _) => name == Text.lowercase word).map (·.2)
  match s with
  | .text word => named word
  | .table [(word, _)] => named word
  | _ => none

/-- An entry of a table read by `f`, or a default where there is none. -/
def entry {α : Type} (es : List (String × Setting)) (name : String) (f : Setting → Option α)
    (default : α) : Option α :=
  match es.lookup name with
  | some v => f v
  | none => some default

end Setting
end MusicImport
