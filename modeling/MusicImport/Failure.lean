import MusicImport.FilePath
import MusicImport.Files.IoError
import MusicImport.Task.State

/-! What can go wrong, and how it is told. -/
namespace MusicImport

/-- A failure of the catalog, the tags, a metadata source or a task itself. -/
inductive ServiceFailure
  | storage (text : String)
  | metadata (text : String)
  | search (text : String)
  | notFound (entity id : String)
  | invalidTransition (key : GroupKey) (source target : TaskState)
  | choiceAlreadyMade (key : GroupKey)
  | invalidInput (text : String)
  | io (error : IoError)
  | serialization (text : String)
  | database (text : String)
deriving DecidableEq

def ServiceFailure.message : ServiceFailure → String
  | .storage text => "Storage error: " ++ text
  | .metadata text => "Metadata error: " ++ text
  | .search text => "Search error: " ++ text
  | .notFound entity id => entity ++ " not found: " ++ id
  | .invalidTransition key source target =>
    "Invalid transition for " ++ key ++ ": " ++ source.name ++ " -> " ++ target.name
  | .choiceAlreadyMade key => "Choice already made for " ++ key
  | .invalidInput text => "Invalid input: " ++ text
  | .io error => error.message
  | .serialization text => text
  | .database text => "Database error: " ++ text

/-- No outcome was selected for a task that should be applied. -/
def ServiceFailure.noSelection (key : GroupKey) : ServiceFailure :=
  .invalidInput ("no outcome selected for " ++ key)

/-- A failure of an import. -/
inductive ImportFailure
  | transientSearch (source text : String)
  | validation (path : FilePath) (text : String)
  | apply (key : GroupKey) (step : ApplyStep) (path : Option FilePath) (cause : ImportFailure)
  | userAbort
  | corruptJournal (path : FilePath) (line : Nat) (text : String)
  | verificationFailed (path : FilePath)
  | invalidPath (text : String)
  | fileNotFound (text : String)
  | config (text : String)
  | io (error : IoError)
  | service (failure : ServiceFailure)
  | join (text : String)
deriving DecidableEq

def ImportFailure.message : ImportFailure → String
  | .transientSearch source text => "Search failed in source " ++ source ++ ": " ++ text
  | .validation path text => "Invalid file " ++ path.text ++ ": " ++ text
  | .apply key step path cause =>
    "Apply failed for " ++ key ++ " at " ++ step.name ++
      (match path with
        | some p => " (" ++ p.text ++ ")"
        | none => "") ++ ": " ++ cause.message
  | .userAbort => "Import aborted by user"
  | .corruptJournal path line text =>
    "Corrupt journal " ++ path.text ++ " at line " ++ toString line ++ ": " ++ text
  | .verificationFailed path => "File verification failed: hash mismatch for " ++ path.text
  | .invalidPath text => "Invalid file path: " ++ text
  | .fileNotFound text => "File not found: " ++ text
  | .config text => "Invalid configuration: " ++ text
  | .io error => "IO error: " ++ error.message
  | .service failure => failure.message
  | .join text => "Pipeline stage panicked: " ++ text

end MusicImport
