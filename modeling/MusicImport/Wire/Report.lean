import MusicImport.Journal.Entry
import MusicImport.Report
import MusicImport.Wire.Catalog

/-! Reports in JSON. -/
namespace MusicImport
open Json

namespace TaskReport

def toJson (number : Float → Json) (r : TaskReport) : Json :=
  .object [("key", .text r.key), ("outcome", .text r.outcome.name), ("tracks", .ofNat r.tracks),
    ("similarity", .ofOption number r.similarity),
    ("completedSteps", .ofList ApplyStep.toJson r.completedSteps),
    ("entries", .ofList EntryId.toJson r.entries), ("paths", .ofList ofPath r.paths),
    ("error", optText r.error)]

def ofJson? (j : Json) : Option TaskReport := do
  match ← j.record? ["key", "outcome", "tracks", "similarity", "completedSteps", "entries",
    "paths", "error"] with
  | [key, outcome, tracks, similarity, steps, entries, paths, error] =>
    return {
      key := ← key.required text?
      outcome := ← outcome.required Outcome.ofJson?
      tracks := ← tracks.required (nat? 64)
      similarity := ← similarity.optional float?
      completedSteps := ← steps.required (list? ApplyStep.ofJson?)
      entries := ← entries.required (list? EntryId.ofJson?)
      paths := ← paths.required (list? path?)
      error := ← error.optional text? }
  | _ => none

end TaskReport

namespace ImportProgress

def toJson (p : ImportProgress) : Json :=
  .object [("processed", .ofNat p.processed), ("done", .ofNat p.done),
    ("skipped", .ofNat p.skipped), ("aborted", .ofNat p.aborted), ("failed", .ofNat p.failed),
    ("current", optText p.current)]

def ofJson? (j : Json) : Option ImportProgress := do
  match ← j.record? ["processed", "done", "skipped", "aborted", "failed", "current"] with
  | [processed, done, skipped, aborted, failed, current] =>
    return {
      processed := ← processed.required (nat? 64)
      done := ← done.required (nat? 64)
      skipped := ← skipped.required (nat? 64)
      aborted := ← aborted.required (nat? 64)
      failed := ← failed.required (nat? 64)
      current := ← current.optional text? }
  | _ => none

end ImportProgress

/-- What follows from the reports of a summary. -/
def ImportSummary.conclusions (s : ImportSummary) : List (String × Json) :=
  [("aborted", .bool s.aborted), ("clean", .bool s.isClean), ("exit_code", .ofNat s.exitCode),
   ("text", .text s.text)]

/-- A summary with the whole seconds that the run took. -/
structure TimedSummary where
  summary : ImportSummary
  seconds : Nat

namespace TimedSummary

def toJson (number : Float → Json) (s : TimedSummary) : Json :=
  .object [("reports", .ofList (·.toJson number) s.summary.reports),
    ("aborted", .bool s.summary.aborted), ("durationSeconds", .ofNat s.seconds)]

def ofJson? (j : Json) : Option TimedSummary := do
  match ← j.record? ["reports", "aborted", "durationSeconds"] with
  | [reports, aborted, seconds] =>
    return ⟨⟨← reports.required (list? TaskReport.ofJson?), ← aborted.required bool?⟩,
      ← seconds.required (nat? 64)⟩
  | _ => none

end TimedSummary
end MusicImport
