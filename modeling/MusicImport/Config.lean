import MusicImport.Decimal.Shortest
import MusicImport.Decision
import MusicImport.Library.Template
import MusicImport.Library.Transfer
import MusicImport.Scoring.Weights

/-! Settings of an import and the ranges they have to be in. -/
namespace MusicImport

/-- What becomes of a task without a certain match when nobody is asked. -/
inductive QuietFallback
  | skip
  | asIs
deriving DecidableEq

structure ImportConfig where
  /-- Where the library is. -/
  libraryPath : FilePath := ⟨"library"⟩
  fileStrategy : FileStrategy := .copy
  /-- Write the resolved values into the files. -/
  writeTags : Bool := true
  /-- Import every file on its own. -/
  singletons : Bool := false
  /-- Leave out groups that the journal has as settled. -/
  resume : Bool := true
  /-- Take them up again even so. -/
  forceReprocess : Bool := false
  journalPath : FilePath := ⟨"cratedig-journal.jsonl"⟩
  /-- A template for destinations, or the name of one. -/
  pathTemplate : String := PathTemplate.standard
  queueCapacity : Nat := 2
  /-- Seconds that a source may take to answer. -/
  searchTimeout : Nat := 30
  /-- Compare every copy with its source. -/
  verifyTransfers : Bool := true
  quietFallback : QuietFallback := .skip
  duplicateAction : DuplicateDecision := .skipNew
  matching : MatchConfig Float := .standard

/-- What is wrong with scoring settings, in words. -/
def MatchConfigFault.message : MatchConfigFault Float → String
  | .threshold v =>
    "autoAcceptThreshold must be within [0, 1], got " ++ Decimal.shortestText v
  | .margin v => "disagreementMargin must be within [0, 1], got " ++ Decimal.shortestText v
  | .weight name v =>
    "weights." ++ name ++ " must be a non-negative number, got " ++ Decimal.shortestText v
  | .lengthSpan => "weights.trackLengthMaxSecs must exceed trackLengthGraceSecs"
  | .spans => "weights.yearSpan and weights.trackIndexSpan must be positive"

/-- The first setting out of range, in words. -/
def ImportConfig.fault? (c : ImportConfig) : Option String :=
  if c.queueCapacity = 0 then some "queueCapacity must be at least 1"
  else if c.searchTimeout = 0 then some "searchTimeoutSecs must be at least 1"
  else if Text.trim c.pathTemplate = "" then some "pathTemplate is empty"
  else if c.fileStrategy != .reference && c.libraryPath.text = "" then
    some "libraryPath is required unless files are referenced in place"
  else c.matching.fault?.map (·.message)

def ImportConfig.validate (c : ImportConfig) : Except ImportFailure Unit :=
  match c.fault? with
  | some text => .error (.config text)
  | none => .ok ()

end MusicImport
