import MusicImport.Catalog.Location
import MusicImport.Command.Help
import MusicImport.Command.Parser
import MusicImport.Session.Import
import MusicImport.Settings.File

/-! Running a command line on a file tree: what it prints, how it ends, and the files after it. -/
namespace MusicImport

/-- Why a command came to nothing. -/
inductive CommandFailure
  | misuse
  | settings
  | catalog (url : String)
  | importing (failure : ImportFailure)

def CommandFailure.message : CommandFailure → String
  | .misuse => "The arguments do not fit; " ++ commandName ++ " --help shows which do"
  | .settings => "Failed to read configuration"
  | .catalog url => "Failed to open catalog " ++ url
  | .importing failure => failure.message

/-- A line of output. -/
inductive OutputLine
  | plain (text : String)
  /-- The line tells at its end how long the command took. -/
  | timed (text : String)

def OutputLine.text : OutputLine → String
  | .plain text => text
  | .timed text => text

/-- The end of a command. -/
structure CommandResult where
  exitCode : Nat := 0
  output : List OutputLine := []
  complaint : Option String := none

/-- A command that came to nothing prints nothing and ends with the code 2. -/
def CommandFailure.result (e : CommandFailure) : CommandResult :=
  { exitCode := 2, complaint := some e.message }

/-- A step of a command; the files it changed stay changed if it fails. -/
abbrev CommandStep := ExceptT CommandFailure (StateM FileTree)

/-- The line for a group. -/
def TaskReport.line (r : TaskReport) : String :=
  spaces (8 - r.outcome.name.length) ++ r.outcome.name ++ "  " ++ r.key ++
    match r.error with
    | some error => "  (" ++ error ++ ")"
    | none => ""

/-- The lines for all groups, and the sum of them. -/
def ImportSummary.lines (s : ImportSummary) : List OutputLine :=
  s.reports.map (.plain ·.line) ++ [.timed s.text] ++
    if s.aborted then [.plain "Import was aborted; run again to resume"] else []

/-- The settings of an import after the options of the command line. -/
def ImportConfig.withOptions (c : ImportConfig) (own : Given) : ImportConfig :=
  let isGiven (name : String) : Bool := (own.lookup name).isSome
  { c with
    libraryPath := ((own.lookup "library").map (⟨·⟩)).getD c.libraryPath
    fileStrategy := ((own.lookup "strategy").bind (strategyWords.lookup ·)).getD c.fileStrategy
    journalPath := ((own.lookup "journal").map (⟨·⟩)).getD c.journalPath
    duplicateAction :=
      ((own.lookup "duplicates").bind (duplicateWords.lookup ·)).getD c.duplicateAction
    matching := { c.matching with
      autoAcceptThreshold :=
        ((own.lookup "threshold").bind Decimal.float?).getD c.matching.autoAcceptThreshold }
    singletons := c.singletons || isGiven "singletons"
    forceReprocess := c.forceReprocess || isGiven "force"
    resume := c.resume && !isGiven "no-resume"
    writeTags := c.writeTags && !isGiven "no-write-tags"
    quietFallback := if isGiven "as-is" then .asIs else c.quietFallback }

namespace CatalogLocation

/-- What fails in an import into a catalog that cannot be written to. -/
def faults : CatalogLocation → List Fault
  | .file _ true =>
    [Call.add, .addAlbum, .remove].map fun call =>
      ⟨⟨call, 0⟩, .database
        "error returned from database: (code: 8) attempt to write a readonly database"⟩
  | _ => []

end CatalogLocation

namespace CommandStep

/-- The settings from files, variables and shared options. -/
def settings (vars : Variables) (shared : Given) :
    CommandStep CommandSettings := do
  match CommandSettings.load? (← get) ((shared.lookup "config").map (⟨·⟩)) vars with
  | none => throw .settings
  | some s => return { s with catalog := (shared.lookup "database-url").getD s.catalog }

/-- Opens a catalog, which makes it if need be. -/
def openCatalog (url : String) : CommandStep (CatalogLocation × Catalog) := do
  match CatalogLocation.ofUrl? url with
  | none => throw (.catalog url)
  | some l =>
    match l.open? (← get) with
    | none => throw (.catalog url)
    | some (c, files) =>
      set files
      return (l, c)

/-- Counts what is in the catalog. -/
def stats (vars : Variables) (shared : Given) : CommandStep CommandResult := do
  let s ← settings vars shared
  let (_, c) ← openCatalog s.catalog
  return { output := [.plain (toString c.albums.length ++ " albums, " ++
    toString c.items.length ++ " items")] }

/-- Imports without asking anybody. What the catalog took in before a failure stays in it. -/
def importing (vars : Variables) (time : Timestamp) (path : FilePath)
    (shared own : Given) : CommandStep CommandResult := do
  let s ← settings vars shared
  let config := s.importing.withOptions own
  let (location, catalog) ← openCatalog s.catalog
  let env : Environment :=
    { config, layout := .template (PathTemplate.ofSetting config.pathTemplate)
      standing := config.standingAnswers, faults := location.faults }
  let (answer, after) := (Session.run env time path).run
    { files := ← get, tags := .embedded, catalog }
  set ((location.save? after.catalog after.files).getD after.files)
  match answer with
  | .error e => throw (.importing e)
  | .ok summary => return { exitCode := summary.exitCode, output := summary.lines }

/-- Does what a request asks for. -/
def ofRequest (vars : Variables) (time : Timestamp) :
    Request → CommandStep CommandResult
  | .explain topic => return { output := (topic.lines vars).map .plain }
  | .misuse => throw .misuse
  | .stats shared => stats vars shared
  | .importing path shared own => importing vars time path shared own

end CommandStep

/-- The surroundings of a command. -/
structure CommandCall where
  words : List String
  vars : Variables := []
  time : Timestamp

/-- Runs a command on files. -/
def CommandCall.run (c : CommandCall) (t : FileTree) : CommandResult × FileTree :=
  let request := Request.ofWords c.vars c.words
  match ((CommandStep.ofRequest c.vars c.time request).run).run t with
  | (.ok r, files) => (r, files)
  | (.error e, files) => (e.result, files)

end MusicImport
