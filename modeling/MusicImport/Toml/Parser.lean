import MusicImport.Toml.Scalar
import MusicImport.Toml.Table

/-! Reading TOML documents: lines that are headers of tables or keys with values. -/
namespace MusicImport.Toml

def isBareKeyChar (c : Char) : Bool := c.isAlphanum || c = '_' || c = '-'

/-- One name of a key, bare or in quotes. -/
def simpleKey? : List Char → Option (String × List Char)
  | [] => none
  | c :: cs =>
    if c = '"' || c = '\'' then
      (lineString? c (cs.length + 1) cs).map fun (s, rest) => (String.ofList s, rest)
    else
      let name := (c :: cs).takeWhile isBareKeyChar
      if name.isEmpty then none else some (String.ofList name, (c :: cs).dropWhile isBareKeyChar)

/-- Names with dots between them, and what follows the white space behind them. -/
def key? : Nat → List Char → Option (List String × List Char)
  | 0, _ => none
  | fuel + 1, cs => do
    let (name, cs) ← simpleKey? (skipGaps cs)
    match skipGaps cs with
    | '.' :: cs =>
      let (names, cs) ← key? fuel cs
      return (name :: names, cs)
    | cs => return ([name], cs)

/-- What follows a comment, if there is one; the end of its line stays. -/
def afterComment? : List Char → Option (List Char)
  | '#' :: cs =>
    let rest := cs.dropWhile isAllowed
    if rest.isEmpty || (afterLineEnd? rest).isSome then some rest else none
  | cs => some cs

/-- What follows white space, ends of lines and comments. -/
def skipFiller? : Nat → List Char → Option (List Char)
  | 0, _ => none
  | fuel + 1, cs => do
    let cs ← afterComment? (skipGaps cs)
    match afterLineEnd? cs with
    | some rest => skipFiller? fuel rest
    | none => return cs

/-- What follows filler, as much of it as there is. -/
def pastFiller? (cs : List Char) : Option (List Char) := skipFiller? (cs.length + 1) cs

mutual

/-- A value. -/
def value? : Nat → List Char → Option (Setting × List Char)
  | 0, _ => none
  | _ + 1, [] => none
  | fuel + 1, c :: cs =>
    if c = '"' || c = '\'' then
      (string? c (c :: cs)).map fun (s, rest) => (.text s, rest)
    else if c = '[' then do
      let (items, cs) ← items? fuel (← pastFiller? cs)
      return (.list items, cs)
    else if c = '{' then
      match skipGaps cs with
      | '}' :: cs => some (.table [], cs)
      | cs => do
        let (es, cs) ← members? fuel [] cs
        return (.table (settings es), cs)
    else bareScalar? (c :: cs)

/-- The items of a list, each on as many lines as it likes. -/
def items? : Nat → List Char → Option (List Setting × List Char)
  | 0, _ => none
  | fuel + 1, cs =>
    match cs with
    | ']' :: cs => some ([], cs)
    | cs => do
      let (item, cs) ← value? fuel cs
      match ← pastFiller? cs with
      | ',' :: cs =>
        let (rest, cs) ← items? fuel (← pastFiller? cs)
        return (item :: rest, cs)
      | ']' :: cs => return ([item], cs)
      | _ => none

/-- The members of a table within a line, after the given ones. -/
def members? : Nat → Entries → List Char → Option (Entries × List Char)
  | 0, _, _ => none
  | fuel + 1, es, cs => do
    match ← key? (cs.length + 1) cs with
    | (key, '=' :: cs) =>
      let (v, cs) ← value? fuel (skipGaps cs)
      let es ← es.insert v key
      match skipGaps cs with
      | ',' :: cs => members? fuel es cs
      | '}' :: cs => return (es, cs)
      | _ => none
    | _ => none

end

/-- A document as far as it is read: its entries, and the header that is open. -/
structure Document where
  entries : Entries := []
  header : List String := []

/-- One header or one key with its value. -/
def statement? (d : Document) : List Char → Option (Document × List Char)
  | '[' :: '[' :: cs => do
    match ← key? (cs.length + 1) cs with
    | (path, ']' :: ']' :: cs) => return (⟨← d.entries.openItem path, path⟩, cs)
    | _ => none
  | '[' :: cs => do
    match ← key? (cs.length + 1) cs with
    | (path, ']' :: cs) => return (⟨← d.entries.openTable path, path⟩, cs)
    | _ => none
  | cs => do
    match ← key? (cs.length + 1) cs with
    | (key, '=' :: cs) =>
      let cs := skipGaps cs
      let (v, cs) ← value? (cs.length + 1) cs
      return ({ d with entries := ← d.entries.insertBelow d.header key v }, cs)
    | _ => none

/-- The statements of a document, each on a line of its own. -/
def statements? : Nat → Document → List Char → Option Document
  | 0, _, _ => none
  | fuel + 1, d, cs => do
    match ← pastFiller? cs with
    | [] => return d
    | cs =>
      let (d, cs) ← statement? d cs
      match ← afterComment? (skipGaps cs) with
      | [] => return d
      | cs => statements? fuel d (← afterLineEnd? cs)

/-- The table that a document stands for. -/
def parse? (text : String) : Option (List (String × Setting)) :=
  (statements? (text.toList.length + 1) {} text.toList).map fun d => settings d.entries

end MusicImport.Toml
