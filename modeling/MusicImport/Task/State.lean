/-! The lifecycle of an import task, the outcomes it ends with, and the steps of applying it. -/
namespace MusicImport

/-- Where a task stands. -/
inductive TaskState
  | pending
  | grouped
  | searching
  | awaitingDecision
  | duplicateCheck
  | applying
  | done
  | skipped
  | aborted
  | failed
deriving DecidableEq

namespace TaskState

def all : List TaskState :=
  [.pending, .grouped, .searching, .awaitingDecision, .duplicateCheck, .applying, .done,
   .skipped, .aborted, .failed]

def name : TaskState → String
  | .pending => "pending"
  | .grouped => "grouped"
  | .searching => "searching"
  | .awaitingDecision => "awaiting_decision"
  | .duplicateCheck => "duplicate_check"
  | .applying => "applying"
  | .done => "done"
  | .skipped => "skipped"
  | .aborted => "aborted"
  | .failed => "failed"

/-- States that are never left. -/
def isTerminal (s : TaskState) : Bool := s = .done || s = .skipped || s = .aborted

/-- Terminal, or failed. -/
def isFinished (s : TaskState) : Bool := s.isTerminal || s = .failed

/-- The steps of the lifecycle, apart from aborting and failing. -/
def follows : TaskState → TaskState → Bool
  | .pending, .grouped => true
  | .grouped, .searching => true
  | .searching, .awaitingDecision => true
  | .searching, .duplicateCheck => true
  | .awaitingDecision, .duplicateCheck => true
  | .awaitingDecision, .searching => true
  | .awaitingDecision, .skipped => true
  | .duplicateCheck, .applying => true
  | .duplicateCheck, .skipped => true
  | .duplicateCheck, .searching => true
  | .applying, .done => true
  | .failed, .grouped => true
  | _, _ => false

/-- A task may take a step of the lifecycle, and abort or fail as long as it is live. -/
def canBecome (s next : TaskState) : Bool :=
  if next = .aborted || next = .failed then !s.isFinished else s.follows next

theorem canBecome_eq_false_of_isTerminal {s : TaskState} (h : s.isTerminal = true)
    (next : TaskState) : s.canBecome next = false := by
  cases s <;> first | (simp [isTerminal] at h; done) | (cases next <;> rfl)

end TaskState

/-- How a group ended in one run. -/
inductive Outcome
  | done
  | skipped
  | aborted
  | failed
deriving DecidableEq

namespace Outcome

def name : Outcome → String
  | .done => "done"
  | .skipped => "skipped"
  | .aborted => "aborted"
  | .failed => "failed"

def all : List Outcome := [.done, .skipped, .aborted, .failed]

/-- A later run leaves the group alone. -/
def isSettled (o : Outcome) : Bool := o = .done || o = .skipped

end Outcome

/-- The steps of applying a task, in order. -/
inductive ApplyStep
  | transferFiles
  | writeTags
  | catalogCommit
  | removeSources
deriving DecidableEq

def ApplyStep.name : ApplyStep → String
  | .transferFiles => "transfer_files"
  | .writeTags => "write_tags"
  | .catalogCommit => "catalog_commit"
  | .removeSources => "remove_sources"

def ApplyStep.all : List ApplyStep := [.transferFiles, .writeTags, .catalogCommit, .removeSources]

/-- The name of a group, the same in every run: its directory, or its file. -/
abbrev GroupKey := String

/-- The key of one track of a group that is split. -/
def GroupKey.child (key : GroupKey) (index : Nat) : GroupKey := key ++ "#" ++ toString (index + 1)

end MusicImport
