import MusicImport.FilePath

/-! Local tracks as read from their files, and the values written back to them. -/
namespace MusicImport

/-- The tags of one file at the time it was read. -/
structure Track where
  path : FilePath
  title : Option String := none
  artist : Option String := none
  album : Option String := none
  albumArtist : Option String := none
  trackNumber : Option Nat := none
  trackTotal : Option Nat := none
  discNumber : Option Nat := none
  discTotal : Option Nat := none
  year : Option Int := none
  label : Option String := none
  catalogNumber : Option String := none
  /-- Length in milliseconds. -/
  length : Option Nat := none
  fingerprint : Option String := none
  /-- External id of the recording. -/
  trackId : Option String := none
  /-- External id of the release. -/
  albumId : Option String := none
deriving DecidableEq

/-- Values to put on a file or a catalog row. Absent ones leave what is there. -/
structure TagFields where
  title : Option String := none
  artist : Option String := none
  album : Option String := none
  albumArtist : Option String := none
  trackNumber : Option Nat := none
  trackTotal : Option Nat := none
  discNumber : Option Nat := none
  discTotal : Option Nat := none
  year : Option Int := none
  label : Option String := none
  catalogNumber : Option String := none
  trackId : Option String := none
  albumId : Option String := none
deriving DecidableEq

/-- No value is set. -/
def TagFields.isEmpty (f : TagFields) : Bool := f == {}

namespace Track

/-- The title, or the stem of the file name. -/
def displayTitle (t : Track) : String := t.title.getD (t.path.stem?.getD "Unknown")

/-- The album artist, or the artist. -/
def effectiveAlbumArtist (t : Track) : Option String := t.albumArtist.or t.artist

/-- The values that the track carries. -/
def fields (t : Track) : TagFields :=
  { title := t.title, artist := t.artist, album := t.album, albumArtist := t.albumArtist
    trackNumber := t.trackNumber, trackTotal := t.trackTotal
    discNumber := t.discNumber, discTotal := t.discTotal
    year := t.year, label := t.label, catalogNumber := t.catalogNumber
    trackId := t.trackId, albumId := t.albumId }

/-- The track with every value that `f` sets. -/
def withFields (t : Track) (f : TagFields) : Track :=
  { t with
    title := f.title.or t.title, artist := f.artist.or t.artist, album := f.album.or t.album
    albumArtist := f.albumArtist.or t.albumArtist
    trackNumber := f.trackNumber.or t.trackNumber, trackTotal := f.trackTotal.or t.trackTotal
    discNumber := f.discNumber.or t.discNumber, discTotal := f.discTotal.or t.discTotal
    year := f.year.or t.year, label := f.label.or t.label
    catalogNumber := f.catalogNumber.or t.catalogNumber
    trackId := f.trackId.or t.trackId, albumId := f.albumId.or t.albumId }

@[simp] theorem withFields_path (t : Track) (f : TagFields) : (t.withFields f).path = t.path := rfl

@[simp] theorem withFields_empty (t : Track) : t.withFields {} = t := rfl

/-- The track at another place. -/
def relocated (t : Track) (path : FilePath) : Track := { t with path }

/-- Whole seconds of the length. -/
def seconds (t : Track) : Option Nat := t.length.map (· / 1000)

end Track
end MusicImport
