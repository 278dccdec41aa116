import MusicImport.Candidate
import MusicImport.Json.Record
import MusicImport.Track

/-! Tracks, tag values and candidates in JSON. -/
namespace MusicImport

namespace Json

def optText (o : Option String) : Json := .ofOption .text o

def optNat (o : Option Nat) : Json := .ofOption .ofNat o

def optInt (o : Option Int) : Json := .ofOption .ofInt o

def ofPath (p : FilePath) : Json := .text p.text

def path? (j : Json) : Option FilePath := j.text?.map FilePath.mk

/-- A year has 32 bits with a sign. -/
def year? : Json → Option Int := int? (-2147483648) 2147483647

/-- A row id has 64 bits with a sign. -/
def rowId? : Json → Option Int := int? (-9223372036854775808) 9223372036854775807

end Json

open Json

namespace Track

def toJson (t : Track) : Json :=
  .object [("path", ofPath t.path), ("title", optText t.title), ("artist", optText t.artist),
    ("album", optText t.album), ("album_artist", optText t.albumArtist),
    ("track_number", optNat t.trackNumber), ("track_total", optNat t.trackTotal),
    ("disc_number", optNat t.discNumber), ("disc_total", optNat t.discTotal),
    ("year", optInt t.year), ("label", optText t.label),
    ("catalog_number", optText t.catalogNumber), ("length_ms", optNat t.length),
    ("fingerprint", optText t.fingerprint), ("track_id", optText t.trackId),
    ("album_id", optText t.albumId)]

def ofJson? (j : Json) : Option Track := do
  match ← j.record? ["path", "title", "artist", "album", "album_artist", "track_number",
    "track_total", "disc_number", "disc_total", "year", "label", "catalog_number", "length_ms",
    "fingerprint", "track_id", "album_id"] with
  | [path, title, artist, album, albumArtist, trackNumber, trackTotal, discNumber, discTotal,
      year, label, catalogNumber, length, fingerprint, trackId, albumId] =>
    return {
      path := ← path.required path?
      title := ← title.optional text?
      artist := ← artist.optional text?
      album := ← album.optional text?
      albumArtist := ← albumArtist.optional text?
      trackNumber := ← trackNumber.optional (nat? 32)
      trackTotal := ← trackTotal.optional (nat? 32)
      discNumber := ← discNumber.optional (nat? 32)
      discTotal := ← discTotal.optional (nat? 32)
      year := ← year.optional year?
      label := ← label.optional text?
      catalogNumber := ← catalogNumber.optional text?
      length := ← length.optional (nat? 64)
      fingerprint := ← fingerprint.optional text?
      trackId := ← trackId.optional text?
      albumId := ← albumId.optional text? }
  | _ => none

end Track

namespace TagFields

/-- All values by name, absent ones as null. -/
def members (f : TagFields) : List (String × Json) :=
  [("title", optText f.title), ("artist", optText f.artist), ("album", optText f.album),
   ("album_artist", optText f.albumArtist), ("track_number", optNat f.trackNumber),
   ("track_total", optNat f.trackTotal), ("disc_number", optNat f.discNumber),
   ("disc_total", optNat f.discTotal), ("year", optInt f.year), ("label", optText f.label),
   ("catalog_number", optText f.catalogNumber), ("track_id", optText f.trackId),
   ("album_id", optText f.albumId)]

def toJson (f : TagFields) : Json := .object f.members

def ofJson? (j : Json) : Option TagFields := do
  match ← j.record? ["title", "artist", "album", "album_artist", "track_number", "track_total",
    "disc_number", "disc_total", "year", "label", "catalog_number", "track_id", "album_id"] with
  | [title, artist, album, albumArtist, trackNumber, trackTotal, discNumber, discTotal, year,
      label, catalogNumber, trackId, albumId] =>
    return {
      title := ← title.optional text?
      artist := ← artist.optional text?
      album := ← album.optional text?
      albumArtist := ← albumArtist.optional text?
      trackNumber := ← trackNumber.optional (nat? 32)
      trackTotal := ← trackTotal.optional (nat? 32)
      discNumber := ← discNumber.optional (nat? 32)
      discTotal := ← discTotal.optional (nat? 32)
      year := ← year.optional year?
      label := ← label.optional text?
      catalogNumber := ← catalogNumber.optional text?
      trackId := ← trackId.optional text?
      albumId := ← albumId.optional text? }
  | _ => none

end TagFields

namespace CandidateTrack

def toJson (t : CandidateTrack) : Json :=
  .object [("id", optText t.id), ("title", .text t.title), ("artist", optText t.artist),
    ("track_number", optNat t.trackNumber), ("medium", optNat t.medium),
    ("length_ms", optNat t.length)]

def ofJson? (j : Json) : Option CandidateTrack := do
  match ← j.record? ["id", "title", "artist", "track_number", "medium", "length_ms"] with
  | [id, title, artist, trackNumber, medium, length] =>
    return {
      title := ← title.required text?
      id := ← id.optional text?
      artist := ← artist.optional text?
      trackNumber := ← trackNumber.optional (nat? 32)
      medium := ← medium.optional (nat? 32)
      length := ← length.optional (nat? 64) }
  | _ => none

end CandidateTrack

namespace AlbumCandidate

def toJson (a : AlbumCandidate) : Json :=
  .object [("id", .text a.id), ("source", .text a.source), ("source_priority", .ofNat a.priority),
    ("artist", .text a.artist), ("album", .text a.album), ("year", optInt a.year),
    ("label", optText a.label), ("country", optText a.country),
    ("catalog_number", optText a.catalogNumber), ("mediums", optNat a.mediums),
    ("various_artists", .bool a.variousArtists), ("tracks", .ofList (·.toJson) a.tracks)]

def ofJson? (j : Json) : Option AlbumCandidate := do
  match ← j.record? ["id", "source", "source_priority", "artist", "album", "year", "label",
    "country", "catalog_number", "mediums", "various_artists", "tracks"] with
  | [id, source, priority, artist, album, year, label, country, catalogNumber, mediums,
      variousArtists, tracks] =>
    return {
      id := ← id.required text?
      artist := ← artist.required text?
      album := ← album.required text?
      tracks := ← tracks.required (list? CandidateTrack.ofJson?)
      source := ← source.orDefault text? ""
      priority := ← priority.orDefault (nat? 64) 0
      year := ← year.optional year?
      label := ← label.optional text?
      country := ← country.optional text?
      catalogNumber := ← catalogNumber.optional text?
      mediums := ← mediums.optional (nat? 32)
      variousArtists := ← variousArtists.orDefault bool? false }
  | _ => none

end AlbumCandidate

namespace TrackCandidate

def toJson (t : TrackCandidate) : Json :=
  .object [("id", .text t.id), ("source", .text t.source), ("source_priority", .ofNat t.priority),
    ("title", .text t.title), ("artist", optText t.artist), ("album", optText t.album),
    ("year", optInt t.year), ("length_ms", optNat t.length)]

def ofJson? (j : Json) : Option TrackCandidate := do
  match ← j.record? ["id", "source", "source_priority", "title", "artist", "album", "year",
    "length_ms"] with
  | [id, source, priority, title, artist, album, year, length] =>
    return {
      id := ← id.required text?
      title := ← title.required text?
      source := ← source.orDefault text? ""
      priority := ← priority.orDefault (nat? 64) 0
      artist := ← artist.optional text?
      album := ← album.optional text?
      year := ← year.optional year?
      length := ← length.optional (nat? 64) }
  | _ => none

end TrackCandidate
end MusicImport
