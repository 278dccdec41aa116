import MusicImport.Failure
import MusicImport.Wire.Track

/-! Failures in JSON: the kind, and what is told of it. -/
namespace MusicImport
open Json

namespace ServiceFailure

def kind : ServiceFailure → String
  | .storage _ => "Storage"
  | .metadata _ => "Metadata"
  | .search _ => "Search"
  | .notFound _ _ => "NotFound"
  | .invalidTransition _ _ _ => "InvalidTransition"
  | .choiceAlreadyMade _ => "ChoiceAlreadyMade"
  | .invalidInput _ => "InvalidInput"
  | .io _ => "Io"
  | .serialization _ => "Serialization"
  | .database _ => "Database"

/-- The wording of a failed serialization is left out. -/
def toJson (e : ServiceFailure) : Json :=
  match e with
  | .serialization _ => .object [("error", .text e.kind)]
  | e => .object [("error", .text e.kind), ("message", .text e.message)]

end ServiceFailure

namespace ImportFailure

def kind : ImportFailure → String
  | .transientSearch _ _ => "TransientSearch"
  | .validation _ _ => "Validation"
  | .apply _ _ _ _ => "Apply"
  | .userAbort => "UserAbort"
  | .corruptJournal _ _ _ => "CorruptJournal"
  | .verificationFailed _ => "VerificationFailed"
  | .invalidPath _ => "InvalidPath"
  | .fileNotFound _ => "FileNotFound"
  | .config _ => "Config"
  | .io _ => "Io"
  | .service e => e.kind
  | .join _ => "Join"

/-- Of a corrupt journal the place is told, and not what is wrong there. -/
def toJson (e : ImportFailure) : Json :=
  match e with
  | .corruptJournal path line _ =>
    .object [("error", .text e.kind), ("path", ofPath path), ("line", .ofNat line)]
  | .service e => e.toJson
  | e => .object [("error", .text e.kind), ("message", .text e.message)]

end ImportFailure
end MusicImport
