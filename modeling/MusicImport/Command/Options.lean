import MusicImport.Config
import MusicImport.Decimal.Literal
import MusicImport.Settings.Variables

/-! The options of the command line and what is to be done. -/
namespace MusicImport

/-- What an option's value has to be. -/
inductive ValueKind
  | path
  | text
  | number
  | choice (names : List String)

/-- Whether a text can be the value of an option. -/
def ValueKind.accepts : ValueKind → String → Bool
  | .path, s => s != ""
  | .text, _ => true
  | .number, s => (Decimal.float? s).isSome
  | .choice names, s => names.contains s

/-- An option with a long name and perhaps a letter. One without a value is a switch. -/
structure CommandOption where
  name : String
  letter : Option Char := none
  value : Option ValueKind := none
  /-- The environment variable that gives the value where the command line does not. -/
  fallback : Option String := none
  about : String

/-- The words for ways to bring files to the library. -/
def strategyWords : List (String × FileStrategy) :=
  [("copy", .copy), ("move", .move), ("reference", .reference)]

/-- The words for what becomes of duplicates. -/
def duplicateWords : List (String × DuplicateDecision) :=
  [("skip", .skipNew), ("keep-both", .keepBoth), ("remove-old", .removeOld), ("merge", .merge)]

/-- A subcommand with its options, and the name of the path it takes, if it takes one. -/
structure Subcommand where
  name : String
  about : String
  path : Option String := none
  options : List CommandOption := []

def commandName : String := "cratedig"

def commandAbout : String := "Import audio files into an organized, tagged library"

/-- Options that may stand before or behind the name of a subcommand. -/
def sharedOptions : List CommandOption :=
  [{ name := "config", letter := some 'c', value := some .path, fallback := some "CRATEDIG_CONFIG"
     about := "Configuration file path" },
   { name := "database-url", value := some .text, fallback := some "CRATEDIG_DATABASE_URL"
     about := "Catalog database URL" }]

def importCommand : Subcommand :=
  { name := "import", about := "Import a directory tree or a single file"
    path := some "Directory or file to import"
    options :=
      [{ name := "library", letter := some 'l', value := some .path, about := "Library root" },
       { name := "strategy", value := some (.choice (strategyWords.map (·.1)))
         about := "How files reach the library" },
       { name := "singletons", about := "Import every file as a singleton" },
       { name := "no-resume", about := "Ignore the resume journal" },
       { name := "force", about := "Process groups the journal marks as finished" },
       { name := "no-write-tags", about := "Leave tags in the files untouched" },
       { name := "journal", value := some .path, about := "Resume journal location" },
       { name := "as-is"
         about := "Import unmatched groups with their own tags instead of skipping them" },
       { name := "duplicates"
         value := some (.choice (duplicateWords.map (·.1)))
         about := "What to do when the catalog already holds a group" },
       { name := "threshold", value := some .number
         about := "Minimum similarity for automatic acceptance (0-1)" }] }

def statsCommand : Subcommand := { name := "stats", about := "Show catalog row counts" }

def subcommands : List Subcommand := [importCommand, statsCommand]

/-- The subcommand that explains the others. -/
def helpName : String := "help"

def helpAbout : String := "Print this message or the help of the given subcommand(s)"

/-- What the command explains. -/
inductive HelpTopic
  | command
  | subcommand (s : Subcommand)
  | help

/-- Options as they were given, by name; switches with an empty value. -/
abbrev Given := List (String × String)

/-- What a command line asks for. -/
inductive Request
  | explain (topic : HelpTopic)
  | misuse
  | stats (shared : Given)
  | importing (path : FilePath) (shared own : Given)

end MusicImport
