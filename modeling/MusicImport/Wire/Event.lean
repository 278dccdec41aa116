import MusicImport.Session.Search
import MusicImport.Wire.Catalog

/-! The events of an import in JSON, and what is known of a group before it is searched for. How a
number is written is left to the caller. -/
namespace MusicImport
open Json

/-- What a search asks for. -/
def SearchQuery.arguments : SearchQuery → List Json
  | .albums n artist album various =>
    [.ofNat n, optText artist, optText album, .bool various]
  | .recordings path artist title => [ofPath path, optText artist, optText title]
  | .albumId id => [.text id]
  | .recordingId id => [.text id]

/-- The values that are set, by name. -/
def TagFields.setMembers (f : TagFields) : List (String × Json) :=
  f.members.filter fun (_, v) =>
    match v with
    | .null => false
    | _ => true

def Event.toJson (number : Float → Json) : Event → Json
  | .searched source query =>
    .object [("search", .text query.call.name), ("source", .text source),
      ("args", .array query.arguments)]
  | .asked key state ranked =>
    .object [("choose", .text key), ("state", .text state.name),
      ("ranked", .ofList (fun (id, s) => .array [.text id, number s]) ranked)]
  | .duplicate key existing =>
    .object [("duplicate", .text key), ("existing", .ofList CatalogEntry.toJson existing)]
  | .failed key message => .object [("failed", .text key), ("error", .text message)]
  | .wrote path fields => .object [("write", ofPath path), ("fields", .object fields.setMembers)]
  | .imported observer e =>
    .object [("imported", .text e.key), ("observer", .text observer),
      ("identity", e.identity.toJson), ("entries", .ofList EntryId.toJson e.entries),
      ("replaced", .ofList EntryId.toJson e.replaced), ("paths", .ofList ofPath e.paths),
      ("as_is", .bool e.asIs)]

def LocalAlbum.toJson (a : LocalAlbum) : Json :=
  .object [("artist", optText a.artist), ("album", optText a.album), ("year", optInt a.year),
    ("label", optText a.label), ("catalog_number", optText a.catalogNumber),
    ("album_id", optText a.albumId), ("mediums", optNat a.mediums)]

def Likelies.toJson (l : Likelies) : Json :=
  .object [("artist", optText l.artist), ("album", optText l.album), ("title", optText l.title),
    ("album_id", optText l.albumId), ("track_id", optText l.trackId),
    ("va_likely", .bool l.variousArtists)]

end MusicImport
