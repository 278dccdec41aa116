import MusicImport.Json.Record
import MusicImport.Scoring.Alignment
import MusicImport.Scoring.Match

/-! Distances and alignments in JSON. How a number is written is left to the caller. -/
namespace MusicImport
open Json

def DistanceField.ofJson? : Json → Option DistanceField :=
  Json.name? (DistanceField.all.map fun f => (f.name, f))

namespace DistanceComponent

def toJson (number : Float → Json) (c : DistanceComponent Float) : Json :=
  .object [("field", .text c.field.name), ("penalty", number c.penalty),
    ("max_penalty", number c.bound)]

def ofJson? (j : Json) : Option (DistanceComponent Float) := do
  match ← j.record? ["field", "penalty", "max_penalty"] with
  | [field, penalty, bound] =>
    return ⟨← field.required DistanceField.ofJson?, ← penalty.required float?,
      ← bound.required float?⟩
  | _ => none

end DistanceComponent

namespace Distance

def toJson (number : Float → Json) (d : Distance Float) : Json :=
  .object [("penalty", number d.penalty), ("max_penalty", number d.bound),
    ("components", .ofList (·.toJson number) d.components)]

def ofJson? (j : Json) : Option (Distance Float) := do
  match ← j.record? ["penalty", "max_penalty", "components"] with
  | [penalty, bound, components] =>
    return ⟨← penalty.required float?, ← bound.required float?,
      ← components.required (list? DistanceComponent.ofJson?)⟩
  | _ => none

/-- A distance with what follows from it. -/
def described (number : Float → Json) (d : Distance Float) : Json :=
  .object [("penalty", number d.penalty), ("max", number d.bound),
    ("normalized", number d.normalized), ("similarity", number d.similarity),
    ("text", .text d.text),
    ("components", .ofList (fun c => .array [.text c.field.name, number c.penalty,
      number c.bound]) d.components)]

end Distance

namespace Alignment

def pairToJson (p : Nat × Nat) : Json := .array [.ofNat p.1, .ofNat p.2]

def pair? : Json → Option (Nat × Nat)
  | .array [a, b] => do return (← a.nat? 64, ← b.nat? 64)
  | _ => none

def toJson (a : Alignment) : Json :=
  .object [("pairs", .ofList pairToJson a.pairs),
    ("unmatched_local", .ofList .ofNat a.unmatchedLocal),
    ("missing_candidate", .ofList .ofNat a.missingCandidate)]

def ofJson? (j : Json) : Option Alignment := do
  match ← j.record? ["pairs", "unmatched_local", "missing_candidate"] with
  | [pairs, unmatched, missing] =>
    return ⟨← pairs.required (list? pair?), ← unmatched.required (list? (nat? 64)),
      ← missing.required (list? (nat? 64))⟩
  | _ => none

end Alignment
/-- A match with what ranks it. -/
def Match.described (number : Float → Json) (m : Match Float) : Json :=
  .object [("id", .text m.candidate.id), ("source", .text m.candidate.source),
    ("priority", .ofNat m.candidate.priority), ("alignment", m.alignment.toJson),
    ("distance", m.distance.described number), ("partial", .bool m.isPartial),
    ("missing", .ofNat m.missingTracks), ("unmatched", .ofNat m.unmatchedTracks)]

end MusicImport
