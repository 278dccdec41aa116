import MusicImport.Command.Options
import MusicImport.Text.Split

/-! The explanations of the command, in lines of at most a hundred characters. -/
namespace MusicImport

def helpWidth : Nat := 100

/-- An entry of an explanation: what is typed, and what it does, with notes in brackets. -/
structure HelpEntry where
  /-- What stands in front of the part that entries are aligned by. -/
  lead : String := ""
  typed : String
  about : String
  notes : List String := []

namespace HelpEntry

/-- The text beside an entry. -/
def text (e : HelpEntry) : String := Text.joinWith " " (e.about :: e.notes)

/-- The length of the description and its notes, without the blank between them. -/
def weight (e : HelpEntry) : Nat := e.about.length + (Text.joinWith " " e.notes).length

end HelpEntry

def spaces (n : Nat) : String := String.ofList (List.replicate n ' ')

/-- Words in lines of the given width; a word that is too long has a line to itself. -/
def fillLines (width : Nat) : List String → List String → List String
  | line, [] => [Text.joinWith " " line]
  | line, word :: rest =>
    if !line.isEmpty && width < (Text.joinWith " " line).length + 1 + word.length then
      Text.joinWith " " line :: fillLines width [word] rest
    else fillLines width (line ++ [word]) rest

/-- Whether an entry has too much text to stand beside what is typed. -/
def HelpEntry.overflows (longest : Nat) (e : HelpEntry) : Bool :=
  let taken := longest + 12
  taken ≤ helpWidth && 2 * helpWidth < 5 * taken && helpWidth - taken < e.weight

/-- The lines of an entry, with its text beside what is typed or below it. -/
def HelpEntry.lines (longest : Nat) (below : Bool) (e : HelpEntry) : List String :=
  let column := if below then 10 else 2 + e.lead.length + longest + 2
  let text := fillLines (helpWidth - column) [] (Text.split ' ' e.text)
  let typed := "  " ++ e.lead ++ e.typed
  if below then typed :: text.map (spaces 10 ++ ·)
  else
    match text with
    | [] => [typed]
    | first :: rest =>
      (typed ++ spaces (longest + 2 - e.typed.length) ++ first) :: rest.map (spaces column ++ ·)

/-- A section of an explanation. If one entry overflows, all texts go below. -/
def helpSection (title : String) (es : List HelpEntry) : List String :=
  let longest := (es.map (·.typed.length)).foldl Nat.max 2
  let below := es.any (·.overflows longest)
  (title ++ ":") :: es.flatMap (·.lines longest below)

namespace CommandOption

/-- The name of the value in an explanation. -/
def placeholder (o : CommandOption) : String :=
  String.ofList (o.name.toList.map fun c => if c = '-' then '_' else c.toUpper)

def helpEntry (vars : Variables) (o : CommandOption) : HelpEntry :=
  { lead := match o.letter with
      | some c => String.ofList ['-', c, ',', ' ']
      | none => "    "
    typed := "--" ++ o.name ++ if o.value.isSome then " <" ++ o.placeholder ++ ">" else ""
    about := o.about
    notes :=
      (match o.fallback with
        | some v => ["[env: " ++ v ++ "=" ++ (vars.lookup v).getD "" ++ "]"]
        | none => []) ++
      (match o.value with
        | some (.choice names) => ["[possible values: " ++ Text.joinWith ", " names ++ "]"]
        | _ => []) }

end CommandOption

def helpOption : CommandOption := { name := helpName, letter := some 'h', about := "Print help" }

/-- The options of a subcommand in the order of their explanation: those with the same place in the
shared and in the own list stand together, by letter or name. -/
def interleaved : List CommandOption → List CommandOption → List CommandOption
  | [], own => own
  | shared, [] => shared
  | a :: shared, b :: own =>
    let key (o : CommandOption) : String :=
      match o.letter with
      | some c => String.ofList [c]
      | none => o.name
    (if key a ≤ key b then [a, b] else [b, a]) ++ interleaved shared own

def optionSection (vars : Variables) (options : List CommandOption) :
    List String :=
  helpSection "Options" ((options ++ [helpOption]).map (·.helpEntry vars))

namespace Subcommand

def usage (s : Subcommand) : String :=
  "Usage: " ++ commandName ++ " " ++ s.name ++ " [OPTIONS]" ++
    if s.path.isSome then " <PATH>" else ""

def help (vars : Variables) (s : Subcommand) : List String :=
  [s.about, "", s.usage] ++
    (match s.path with
      | some about => "" :: helpSection "Arguments" [{ typed := "<PATH>", about }]
      | none => []) ++
    "" :: optionSection vars (interleaved sharedOptions s.options)

end Subcommand

/-- The lines that explain a topic. -/
def HelpTopic.lines (vars : Variables) : HelpTopic → List String
  | .command =>
    [commandAbout, "", "Usage: " ++ commandName ++ " [OPTIONS] <COMMAND>", ""] ++
      helpSection "Commands" (subcommands.map (fun s => { typed := s.name, about := s.about }) ++
        [{ typed := helpName, about := helpAbout }]) ++
      "" :: optionSection vars sharedOptions
  | .subcommand s => s.help vars
  | .help =>
    [helpAbout, "", "Usage: " ++ commandName ++ " " ++ helpName ++ " [COMMAND]...", ""] ++
      helpSection "Arguments"
        [{ typed := "[COMMAND]...", about := "Print help for the subcommand(s)" }]

end MusicImport
