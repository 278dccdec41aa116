import MusicImport.Settings.Value

/-! Tables of a TOML document while it is read. How a table came about decides what may still be
added to it. -/
namespace MusicImport.Toml

/-- How a table came about: on the way of a header, by its own header, or by a dotted key. -/
inductive TableKind
  | passed
  | header
  | dotted
deriving DecidableEq

/-- An entry: a value that is complete, a table, or a list of tables of which the last is open. -/
inductive Node
  | value (v : Setting)
  | table (kind : TableKind) (entries : List (String × Node))
  | tables (items : List (List (String × Node)))

abbrev Entries := List (String × Node)

namespace Entries

/-- Replaces the entry of a name, which is there. -/
def replace (name : String) (n : Node) (es : Entries) : Entries :=
  es.map fun e => if e.1 == name then (name, n) else e

/-- Puts a value at the end of a dotted key. Tables on the way may not have a header of their
own. -/
def insert (v : Setting) : (key : List String) → Entries → Option Entries
  | [], _ => none
  | [name], es =>
    match es.lookup name with
    | none => some (es ++ [(name, .value v)])
    | some _ => none
  | name :: rest, es =>
    match es.lookup name with
    | none => (insert v rest []).map fun sub => es ++ [(name, .table .dotted sub)]
    | some (.table kind sub) =>
      if kind = .header then none
      else (insert v rest sub).map fun sub => es.replace name (.table kind sub)
    | some _ => none

/-- Changes the entries that a header path leads to, where tables on the way are made. The last
name of the path is handled by `last`. -/
def along (last : String → Entries → Option Entries) : (path : List String) → Entries → Option Entries
  | [], _ => none
  | [name], es => last name es
  | name :: rest, es =>
    match es.lookup name with
    | none => (along last rest []).map fun sub => es ++ [(name, .table .passed sub)]
    | some (.table kind sub) =>
      (along last rest sub).map fun sub => es.replace name (.table kind sub)
    | some (.tables items) =>
      match items.getLast? with
      | some sub => (along last rest sub).map fun sub =>
          es.replace name (.tables (items.dropLast ++ [sub]))
      | none => none
    | some (.value _) => none

/-- Opens the table of a header, which may have been passed but not defined before. -/
def openTable (path : List String) (es : Entries) : Option Entries :=
  along (fun name es =>
    match es.lookup name with
    | none => some (es ++ [(name, .table .header [])])
    | some (.table .passed sub) => some (es.replace name (.table .header sub))
    | some _ => none) path es

/-- Opens one more table of a list. -/
def openItem (path : List String) (es : Entries) : Option Entries :=
  along (fun name es =>
    match es.lookup name with
    | none => some (es ++ [(name, .tables [[]])])
    | some (.tables items) => some (es.replace name (.tables (items ++ [[]])))
    | some _ => none) path es

/-- Puts a value into the table that was opened last, at the end of a dotted key. -/
def insertBelow (header key : List String) (v : Setting) (es : Entries) : Option Entries :=
  if header.isEmpty then insert v key es
  else
    along (fun name es =>
      match es.lookup name with
      | some (.table kind sub) =>
        (insert v key sub).map fun sub => es.replace name (.table kind sub)
      | some (.tables items) =>
        match items.getLast? with
        | some sub => (insert v key sub).map fun sub =>
            es.replace name (.tables (items.dropLast ++ [sub]))
        | none => none
      | _ => none) header es

end Entries

mutual

/-- The finished value of an entry. -/
def Node.setting : Node → Setting
  | .value v => v
  | .table _ es => .table (settings es)
  | .tables items => .list (tableSettings items)

def settings : List (String × Node) → List (String × Setting)
  | [] => []
  | (name, n) :: rest => (name, n.setting) :: settings rest

def tableSettings : List (List (String × Node)) → List Setting
  | [] => []
  | es :: rest => .table (settings es) :: tableSettings rest

end

end MusicImport.Toml
