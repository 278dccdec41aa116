import MusicImport.Files.Tree
import MusicImport.Settings.Import
import MusicImport.Settings.Variables
import MusicImport.Text.Lossy
import MusicImport.Toml.Parser

/-! The settings of the command: a file of settings, then variables over it. The ending of the
file's name tells its format. -/
namespace MusicImport

mutual

/-- A JSON value as a setting; a value that cannot be read is none. -/
def Setting.ofJson? : Json → Option Setting
  | .null => some .nothing
  | .bool v => some (.bool v)
  | .number n =>
    match Json.int? (-signed64) (signed64 - 1) (.number n) with
    | some v => some (.int v)
    | none => n.toFloat?.map .number
  | .text s => some (.text s)
  | .broken => none
  | .array items => (itemsOfJson? items).map .list
  | .object ms => (membersOfJson? ms).map .table

def itemsOfJson? : List Json → Option (List Setting)
  | [] => some []
  | v :: vs => do
    let s ← Setting.ofJson? v
    return s :: (← itemsOfJson? vs)

/-- Members in order; of repeated ones the last counts. -/
def membersOfJson? : List (String × Json) → Option (List (String × Setting))
  | [] => some []
  | (name, v) :: ms => do
    let s ← Setting.ofJson? v
    let rest ← membersOfJson? ms
    return if rest.any (·.1 == name) then rest else (name, s) :: rest

end

/-- The formats of settings files. -/
inductive SettingsFormat
  | toml
  | json
deriving DecidableEq

namespace SettingsFormat

def all : List SettingsFormat := [.toml, .json]

def extension : SettingsFormat → String
  | .toml => "toml"
  | .json => "json"

/-- The table that the text of a file stands for. -/
def parse? (text : String) : SettingsFormat → Option (List (String × Setting))
  | .toml => Toml.parse? text
  | .json =>
    match (Json.parse? text).bind Setting.ofJson? with
    | some (.table es) => some es
    | _ => none

end SettingsFormat

/-- The file that a path names, or else the one with the ending of a format added. -/
def settingsFile? (t : FileTree) (p : FilePath) : Option (FilePath × SettingsFormat) :=
  if t.isFile p then
    (SettingsFormat.all.find? fun f => p.extension? == some f.extension).map (p, ·)
  else
    SettingsFormat.all.findSome? fun f =>
      let q : FilePath := ⟨p.text ++ "." ++ f.extension⟩
      if t.isFile q then some (q, f) else none

/-- A text without the mark that some editors put in front. -/
def withoutMark (content : ByteArray) : ByteArray :=
  if content.toList.take 3 = [0xEF, 0xBB, 0xBF] then content.extract 3 content.size else content

/-- The entries of a settings file. -/
def readSettings? (t : FileTree) (p : FilePath) : Option (List (String × Setting)) := do
  let (file, format) ← settingsFile? t p
  let content ← (t.read file).toOption
  format.parse? (Text.lossy (withoutMark content))

/-- What the command is told by files and variables. -/
structure CommandSettings where
  catalog : String := "sqlite://./cratedig.db"
  importing : ImportConfig := {}

namespace CommandSettings

/-- The settings that are read when no file is named, if there is one. -/
def usualFile : FilePath := ⟨"cratedig.toml"⟩

def ofTable? (es : List (String × Setting)) : Option CommandSettings := do
  let base : CommandSettings := {}
  return {
    catalog := ← Setting.entry es "database_url" Setting.text? base.catalog
    importing := ← Setting.entry es "import" base.importing.ofSetting? base.importing }

/-- Reads the file that is named, or the usual one, and then the variables. -/
def load? (t : FileTree) (named : Option FilePath) (vars : Variables) :
    Option CommandSettings := do
  let file := named.or (if t.exists? usualFile then some usualFile else none)
  let es ← match file with
    | some p => readSettings? t p
    | none => some []
  ofTable? (Setting.putVariables vars (Setting.putAll es (.table []))).entries

end CommandSettings
end MusicImport
