import MusicImport.Journal.Timestamp
import MusicImport.Json.Parser
import MusicImport.Json.Printer
import MusicImport.Json.Record
import MusicImport.Task.State

/-! One line of the resume journal. -/
namespace MusicImport

/-- How a group ended, when, and which steps of applying it were completed. -/
structure ResumeEntry where
  key : GroupKey
  outcome : Outcome
  timestamp : Timestamp
  completedSteps : List ApplyStep := []
deriving DecidableEq

def Outcome.ofJson? : Json → Option Outcome := Json.name? (Outcome.all.map fun o => (o.name, o))

def ApplyStep.ofJson? : Json → Option ApplyStep :=
  Json.name? (ApplyStep.all.map fun s => (s.name, s))

def ApplyStep.toJson (s : ApplyStep) : Json := .text s.name

namespace ResumeEntry

/-- Steps are left out where there are none. -/
def toJson (e : ResumeEntry) : Json :=
  .object ([("key", .text e.key), ("outcome", .text e.outcome.name),
    ("timestamp", .text e.timestamp.text)] ++
    if e.completedSteps.isEmpty then []
    else [("completedSteps", .ofList ApplyStep.toJson e.completedSteps)])

def ofJson? (j : Json) : Option ResumeEntry := do
  match ← j.record? ["key", "outcome", "timestamp", "completedSteps"] with
  | [key, outcome, timestamp, steps] =>
    return { key := ← key.required Json.text?
             outcome := ← outcome.required Outcome.ofJson?
             timestamp := ← timestamp.required fun t => t.text?.bind Timestamp.ofText?
             completedSteps := ← steps.orDefault (Json.list? ApplyStep.ofJson?) [] }
  | _ => none

/-- The line of an entry, with its end. -/
def line (e : ResumeEntry) : List Char := e.toJson.print ++ ['\n']

def ofLine? (s : String) : Option ResumeEntry := (Json.parse? s).bind ofJson?

end ResumeEntry
end MusicImport
