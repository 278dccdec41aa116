import MusicImport.Catalog.Basic
import MusicImport.Wire.Track

/-! Identities and catalog entries in JSON. -/
namespace MusicImport
open Json

namespace Identity

def toJson : Identity → Json
  | .album artist title =>
    .object [("kind", .text "album"), ("artist", .text artist), ("album", .text title)]
  | .item artist title =>
    .object [("kind", .text "item"), ("artist", .text artist), ("title", .text title)]

/-- The two parts of an identity, the second under the given name. -/
def parts? (second : String) (j : Json) : Option (String × String) := do
  match ← j.record? ["artist", second] with
  | [artist, title] => return (← artist.required text?, ← title.required text?)
  | _ => none

/-- The parts of an identity of the given kind. -/
def ofParts? (kind : String) (j : Json) : Option Identity :=
  if kind = "album" then (parts? "album" j).map fun (a, t) => .album a t
  else if kind = "item" then (parts? "title" j).map fun (a, t) => .item a t
  else none

/-- The kind stands among the parts, or in front of them. -/
def ofJson? (j : Json) : Option Identity :=
  match j with
  | .object ms =>
    match ms.filter (·.1 == "kind") with
    | [(_, .text kind)] =>
      let rest := ms.filter (·.1 != "kind")
      if soundMembers rest then ofParts? kind (.object rest) else none
    | _ => none
  | .array (.text kind :: rest) =>
    if soundItems rest then ofParts? kind (.array rest) else none
  | _ => none

end Identity

namespace EntryId

def toJson : EntryId → Json
  | .album id => .object [("kind", .text "album"), ("id", .ofInt id)]
  | .item id => .object [("kind", .text "item"), ("id", .ofInt id)]

def ofJson? (j : Json) : Option EntryId := do
  match ← j.record? ["kind", "id"] with
  | [kind, id] =>
    let id ← id.required rowId?
    kind.required (name? [("album", .album id), ("item", .item id)])
  | _ => none

end EntryId

namespace CatalogEntry

def toJson (e : CatalogEntry) : Json :=
  .object [("id", e.id.toJson), ("artist", .text e.artist), ("title", .text e.title),
    ("year", optInt e.year), ("paths", .ofList ofPath e.paths)]

def ofJson? (j : Json) : Option CatalogEntry := do
  match ← j.record? ["id", "artist", "title", "year", "paths"] with
  | [id, artist, title, year, paths] =>
    return {
      id := ← id.required EntryId.ofJson?
      artist := ← artist.required text?
      title := ← title.required text?
      year := ← year.optional year?
      paths := ← paths.required (list? path?) }
  | _ => none

end CatalogEntry

namespace NewAlbum

def toJson (a : NewAlbum) : Json :=
  .object [("album_artist", .text a.albumArtist), ("album", .text a.album),
    ("year", optInt a.year), ("label", optText a.label), ("album_id", optText a.albumId)]

def ofJson? (j : Json) : Option NewAlbum := do
  match ← j.record? ["album_artist", "album", "year", "label", "album_id"] with
  | [albumArtist, album, year, label, albumId] =>
    return {
      albumArtist := ← albumArtist.required text?
      album := ← album.required text?
      year := ← year.optional year?
      label := ← label.optional text?
      albumId := ← albumId.optional text? }
  | _ => none

end NewAlbum

namespace AlbumRow

def toJson (r : AlbumRow) : Json :=
  .object [("id", .ofInt r.id), ("album_artist", .text r.album.albumArtist),
    ("album", .text r.album.album), ("year", optInt r.album.year),
    ("label", optText r.album.label), ("album_id", optText r.album.albumId),
    ("identity_key", .text r.identityKey)]

def ofJson? (j : Json) : Option AlbumRow := do
  let album ← NewAlbum.ofJson? j
  return ⟨← (j.member "id").int? 0 (signed64 - 1), album, album.identity.key⟩

end AlbumRow

namespace ItemRow

def toJson (r : ItemRow) : Json :=
  .object [("id", .ofInt r.id), ("album_ref", optInt r.album),
    ("identity_key", .text r.identityKey), ("record", r.track.toJson)]

def ofJson? (j : Json) : Option ItemRow := do
  let track ← Track.ofJson? (j.member "record")
  return ⟨← (j.member "id").rowId?, ← optional? rowId? (j.member "album_ref"),
    track.itemIdentity.key, track⟩

end ItemRow

namespace Catalog

/-- All rows, without the ids that were given last. -/
def rowsToJson (c : Catalog) : List (String × Json) :=
  [("albums", .ofList (·.toJson) c.albums), ("items", .ofList (·.toJson) c.items)]

/-- The catalog as it is kept in a file. -/
def toJson (c : Catalog) : Json :=
  .object (c.rowsToJson ++ [("last_album", .ofInt c.lastAlbum), ("last_item", .ofInt c.lastItem)])

def ofJson? (j : Json) : Option Catalog := do
  return {
    albums := ← list? AlbumRow.ofJson? (j.member "albums")
    items := ← list? ItemRow.ofJson? (j.member "items")
    lastAlbum := ← (j.member "last_album").rowId?
    lastItem := ← (j.member "last_item").rowId? }

end Catalog
end MusicImport
