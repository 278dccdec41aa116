import MusicImport.Settings.Value

/-! Settings from environment variables: the name without its start leads to the setting, two
underscores separating the levels, and the value says what it is. -/
namespace MusicImport

/-- Names and values of environment variables. -/
abbrev Variables := List (String × String)

/-- The start of the names of variables that are settings, in any case. -/
def variableStart : String := "cratedig_"

/-- The path of the setting that a variable is for. -/
def variablePath? (name : String) : Option (List String) :=
  let name := (Text.lowercase name).toList
  if variableStart.toList.isPrefixOf name then
    let key := Text.replaceAll ['_', '_'] ['.'] (name.drop variableStart.length)
    some (Setting.pathOf (String.ofList key))
  else none

/-- A whole number of 64 bits with a sign. -/
def wordInteger? (s : String) : Option Int :=
  (Decimal.integer? s).bind fun n => if -signed64 ≤ n ∧ n < signed64 then some n else none

/-- What the text of a variable says: a truth value, a number, or just a text. -/
def Setting.ofVariable (s : String) : Setting :=
  let word := Text.lowercase s
  if word = "true" then .bool true
  else if word = "false" then .bool false
  else
    match wordInteger? s with
    | some n => .int n
    | none =>
      match Decimal.float? s with
      | some x => .number x
      | none => .text s

/-- Puts the settings of variables over others. -/
def Setting.putVariables (vars : Variables) (root : Setting) : Setting :=
  vars.foldl (fun root (name, value) =>
    match variablePath? name with
    | some path => (Setting.ofVariable value).put path root
    | none => root) root

end MusicImport
