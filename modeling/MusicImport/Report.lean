import MusicImport.FilePath
import MusicImport.Identity
import MusicImport.Task.State

/-! What an import tells of each group, of its progress, and in the end. -/
namespace MusicImport

/-- The end of one group. -/
structure TaskReport where
  key : GroupKey
  outcome : Outcome
  tracks : Nat
  /-- Similarity of the match that was applied. -/
  similarity : Option Float := none
  completedSteps : List ApplyStep := []
  /-- Catalog rows that were written. -/
  entries : List EntryId := []
  paths : List FilePath := []
  error : Option String := none

namespace TaskReport

/-- The outcome of a group whose tracks ended one by one: failed or aborted if one did, skipped if
all were. -/
def combinedOutcome (outcomes : List Outcome) : Outcome :=
  if outcomes.contains .failed then .failed
  else if outcomes.contains .aborted then .aborted
  else if !outcomes.isEmpty && outcomes.all (· = .skipped) then .skipped
  else .done

/-- The errors of children, each behind the key of its child. -/
def combinedError (children : List TaskReport) : Option String :=
  let errors := children.filterMap fun c => c.error.map fun e => c.key ++ ": " ++ e
  if errors.isEmpty then none else some (String.intercalate "; " errors)

/-- The report of a split group from those of its children, in their order. -/
def aggregate (key : GroupKey) (children : List TaskReport) : TaskReport :=
  { key
    outcome := combinedOutcome (children.map (·.outcome))
    tracks := (children.map (·.tracks)).foldl (· + ·) 0
    entries := children.flatMap (·.entries)
    paths := children.flatMap (·.paths)
    error := combinedError children }

end TaskReport

/-- Groups that ended so far. -/
structure ImportProgress where
  processed : Nat := 0
  done : Nat := 0
  skipped : Nat := 0
  aborted : Nat := 0
  failed : Nat := 0
  /-- The group that ended last. -/
  current : Option GroupKey := none
deriving DecidableEq

def ImportProgress.record (p : ImportProgress) (r : TaskReport) : ImportProgress :=
  let p := { p with processed := p.processed + 1, current := some r.key }
  match r.outcome with
  | .done => { p with done := p.done + 1 }
  | .skipped => { p with skipped := p.skipped + 1 }
  | .aborted => { p with aborted := p.aborted + 1 }
  | .failed => { p with failed := p.failed + 1 }

/-- The end of a run. -/
structure ImportSummary where
  reports : List TaskReport
  aborted : Bool

namespace ImportSummary

def count (s : ImportSummary) (o : Outcome) : Nat := s.reports.countP (·.outcome = o)

/-- No group was aborted or failed. -/
def isClean (s : ImportSummary) : Bool := s.count .aborted = 0 && s.count .failed = 0

def exitCode (s : ImportSummary) : Nat := if s.isClean then 0 else 1

def text (s : ImportSummary) : String :=
  "Import complete: " ++ toString (s.count .done) ++ " done, " ++
    toString (s.count .skipped) ++ " skipped, " ++ toString (s.count .aborted) ++
    " aborted, " ++ toString (s.count .failed) ++ " failed"

end ImportSummary
end MusicImport
