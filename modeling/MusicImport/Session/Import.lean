import MusicImport.Grouping.Plan
import MusicImport.Report
import MusicImport.Session.Resolve

/-! Importing a directory group by group: read the tags of a group, search, settle, apply, write the
journal. Groups that the journal has as settled are left out. -/
namespace MusicImport

/-- The outcome that a task is reported with. One that was left on its way counts as aborted. -/
def TaskState.outcome : TaskState → Outcome
  | .done => .done
  | .skipped => .skipped
  | .failed => .failed
  | _ => .aborted

namespace Task

/-- The task in a state, if the lifecycle allows it. -/
def marked (t : Task) (state : TaskState) : Task := (t.transition state).toOption.getD t

/-- The similarity of the match that was committed. -/
def similarity? (t : Task) : Option Float :=
  match t.chosen with
  | some (.matched m) => some m.similarity
  | _ => none

/-- The report of a task in its final state. -/
def report (t : Task) : TaskReport :=
  { key := t.key, outcome := t.state.outcome, tracks := t.tracks.length
    similarity := t.similarity? }

end Task

/-- Children of a split group whose reports are in. -/
structure PendingSplit where
  parent : GroupKey
  children : List TaskReport

/-- The reports of an import. Those of children wait until all are in. -/
structure Ledger where
  writer : JournalWriter
  pending : Option PendingSplit := none
  reports : List TaskReport := []

/-- What the journal keeps of a report: steps only of a failed group. -/
def TaskReport.journalEntry (r : TaskReport) (time : Timestamp) : ResumeEntry :=
  { key := r.key, outcome := r.outcome, timestamp := time
    completedSteps := if r.outcome = .failed then r.completedSteps else [] }

/-- The progress after each of the reports. -/
def ImportProgress.history : ImportProgress → List TaskReport → List ImportProgress
  | _, [] => []
  | p, r :: rest => p.record r :: history (p.record r) rest

/-- The task of a group, ready to be searched for; a group without tracks makes none. -/
def GroupPlan.task? (plan : GroupPlan) : List Track → Option Task
  | [] => none
  | first :: rest =>
    some { key := plan.key, tracks := if plan.isAlbum then first :: rest else [first]
           isAlbum := plan.isAlbum, state := .grouped }

/-- What an import has before it: its surroundings with the journal as it was found, the writer of
the journal, and the groups to take up. -/
structure Agenda where
  env : Environment
  writer : JournalWriter
  plans : List GroupPlan

namespace Session

/-- Applies a task that is ready for it and reports its end. -/
def applyResolved (env : Environment) (t : Task) : Act TaskReport := do
  if t.state != .applying then return t.report
  if ← isAborted then return (t.marked .aborted).report
  match ← (apply env t).run with
  | .ok applied =>
    return { (t.marked .done).report with
      entries := applied.entries, paths := applied.paths, completedSteps := applied.completed }
  | .error e =>
    record (.failed t.key e.failure.message)
    return { (t.marked .failed).report with
      completedSteps := e.completed, error := some e.failure.message }

/-- Brings a settled task to its end and reports it. -/
def finish (env : Environment) (r : Resolved) : Act TaskReport := do
  let report ← applyResolved env r.task
  return { report with error := (r.failure.map (·.message)).or report.error }

/-- Writes the report of a group into the journal. -/
def enterReport (time : Timestamp) (l : Ledger) (r : TaskReport) : Attempt ImportFailure Ledger := do
  let s ← get
  match l.writer.append s.files (r.journalEntry time) with
  | .error e => throw e
  | .ok (writer, files) =>
    set { s with files }
    return { l with writer, reports := l.reports ++ [r] }

/-- Takes the report of a child; the last one of a split group completes the group's own. -/
def enterChild (time : Timestamp) (l : Ledger) (o : SplitOrigin) (r : TaskReport) :
    Attempt ImportFailure Ledger := do
  let pending := l.pending.getD ⟨o.parent, []⟩
  let children := pending.children ++ [r]
  if o.count ≤ o.index + 1 then
    enterReport time { l with pending := none } (TaskReport.aggregate pending.parent children)
  else
    return { l with pending := some { pending with children } }

/-- Finishes settled tasks in their order. -/
def finishAll (env : Environment) (time : Timestamp) :
    Ledger → List Resolved → Attempt ImportFailure Ledger
  | l, [] => return l
  | l, r :: rest => do
    let report ← finish env r
    let l ← match r.task.origin with
      | none => enterReport time l report
      | some o => enterChild time l o report
    finishAll env time l rest

/-- The tracks of files whose tags can be read. -/
def readGroup (env : Environment) : List FilePath → Act (List Track)
  | [] => return []
  | p :: rest => do
    let track ← (readTags env p).run
    return track.toOption.toList ++ (← readGroup env rest)

/-- The first search for a task, which an abort prevents. -/
def searchGrouped (env : Environment) (t : Task) : Act Task := do
  if ← isAborted then return t
  match ← (search env t none).run with
  | .ok t => return t
  | .error _ => return t

/-- Settles the task of a group, which may be split. -/
def settleGroup (env : Environment) (t : Task) : Act (List Resolved) := do
  resolve env (← searchGrouped env t)

/-- Takes one group all the way. -/
def importTask (env : Environment) (time : Timestamp) (l : Ledger) (t : Task) :
    Attempt ImportFailure Ledger := do
  let resolved ← settleGroup env t
  finishAll env time l resolved

/-- Imports groups in order. An abort that is raised before the task of a group is made leaves out
that group and all after it. -/
def importGroups (env : Environment) (time : Timestamp) :
    Ledger → List GroupPlan → Attempt ImportFailure Ledger
  | l, [] => return l
  | l, plan :: rest => do
    match plan.task? (← readGroup env plan.files) with
    | none => importGroups env time l rest
    | some t =>
      if ← isAborted then return l
      else importGroups env time (← importTask env time l t) rest

/-- The groups that the journal lets an import leave out. -/
def settledGroups (env : Environment) : List GroupKey :=
  if env.config.resume && !env.config.forceReprocess then env.journal.settledKeys else []

/-- Opens the journal and finds the groups below a root that it does not have as settled. -/
def prepare (env : Environment) (root : FilePath) : Attempt ImportFailure Agenda := do
  let s ← get
  let env ← liftExcept (env.withJournal s.files)
  let (opened, files) := JournalWriter.openAt s.files env.config.journalPath
  set { s with files }
  let writer ← liftExcept opened
  let plans ← liftExcept (files.discover root env.config.singletons false)
  let settled := settledGroups env
  return { env, writer, plans := plans.filter fun p => !settled.contains p.key }

/-- Imports below a root. -/
def importBelow (env : Environment) (time : Timestamp) (root : FilePath) :
    Attempt ImportFailure ImportSummary := do
  let agenda ← prepare env root
  let l ← importGroups agenda.env time { writer := agenda.writer } agenda.plans
  return ⟨l.reports, ← isAborted⟩

/-- Imports below a root with settings that are in range. -/
def run (env : Environment) (time : Timestamp) (root : FilePath) :
    Attempt ImportFailure ImportSummary := do
  liftExcept env.config.validate
  importBelow env time root

end Session
end MusicImport
