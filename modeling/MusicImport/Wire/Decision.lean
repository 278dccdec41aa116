import MusicImport.Decision
import MusicImport.Json.Record

/-! Answers in JSON: a word, or an object that gives the word what it needs. -/
namespace MusicImport
open Json

namespace ManualQuery

def toJson : ManualQuery → Json
  | .terms artist title =>
    .object [("terms", .object [("artist", .text artist), ("title", .text title)])]
  | .id value => .object [("id", .text value)]

def ofJson? (j : Json) : Option ManualQuery := do
  match ← j.choice? with
  | ("terms", some content) =>
    match ← content.record? ["artist", "title"] with
    | [artist, title] => return .terms (← artist.required text?) (← title.required text?)
    | _ => none
  | ("id", some content) => return .id (← content.text?)
  | _ => none

end ManualQuery

namespace MatchDecision

def toJson : MatchDecision → Json
  | .applyBest => .text "apply_best"
  | .applyCandidate rank => .object [("apply_candidate", .ofNat rank)]
  | .useAsIs => .text "use_as_is"
  | .asSingletons => .text "as_singletons"
  | .manualSearch query => .object [("manual_search", query.toJson)]
  | .skip => .text "skip"
  | .abort => .text "abort"

def plain : List (String × MatchDecision) :=
  [("apply_best", .applyBest), ("use_as_is", .useAsIs), ("as_singletons", .asSingletons),
   ("skip", .skip), ("abort", .abort)]

def ofJson? (j : Json) : Option MatchDecision := do
  match ← j.choice? with
  | ("apply_candidate", some content) => return .applyCandidate (← content.nat? 64)
  | ("manual_search", some content) => return .manualSearch (← ManualQuery.ofJson? content)
  | _ => j.name? plain

end MatchDecision

namespace DuplicateDecision

def toJson (d : DuplicateDecision) : Json := .text d.name

def ofJson? : Json → Option DuplicateDecision :=
  Json.name? (DuplicateDecision.all.map fun d => (d.name, d))

end DuplicateDecision
end MusicImport
