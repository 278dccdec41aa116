import MusicImport.Json.Basic

/-! Reading records and enumerations from JSON. A record is an object, or the array of its fields
in order; members with unknown names are passed over and known names may not be repeated. -/
namespace MusicImport.Json

/-- What a record holds for one of its fields: a value, no member of that name, or an array that
ended before it. -/
inductive Slot
  | value (json : Json)
  | absent
  | short

/-- The slots of the named fields. -/
def record? (names : List String) : Json → Option (List Slot)
  | .object ms =>
    names.mapM fun name =>
      match ms.filter (·.1 == name) with
      | [] => some .absent
      | [(_, v)] => some (.value v)
      | _ => none
  | .array vs =>
    if vs.length ≤ names.length then
      some (vs.map .value ++ List.replicate (names.length - vs.length) .short)
    else none
  | _ => none

namespace Slot

/-- A field that has to be there. -/
def required {α : Type} (f : Json → Option α) : Slot → Option α
  | .value v => f v
  | _ => none

/-- A field that may be null, or left out of an object. -/
def optional {α : Type} (f : Json → Option α) : Slot → Option (Option α)
  | .value v => optional? f v
  | .absent => some none
  | .short => none

/-- A field that may be left out, but not be null unless `f` reads null. -/
def orDefault {α : Type} (f : Json → Option α) (default : α) : Slot → Option α
  | .value v => f v
  | _ => some default

end Slot

/-- The name and the content of a choice: a text is a choice without content. -/
def choice? : Json → Option (String × Option Json)
  | .text name => some (name, none)
  | .object [(name, content)] => some (name, some content)
  | _ => none

/-- A choice among names without content; a content of null is as good as none. -/
def name? {α : Type} (choices : List (String × α)) (j : Json) : Option α :=
  match j.choice? with
  | some (name, none) | some (name, some .null) => choices.lookup name
  | _ => none

mutual

/-- Whether every text of a value can be read and every number is a double. -/
def sound : Json → Bool
  | .broken => false
  | .number n => n.toFloat?.isSome
  | .array items => soundItems items
  | .object members => soundMembers members
  | _ => true

def soundItems : List Json → Bool
  | [] => true
  | v :: vs => sound v && soundItems vs

def soundMembers : List (String × Json) → Bool
  | [] => true
  | (_, v) :: ms => sound v && soundMembers ms

end

end MusicImport.Json
