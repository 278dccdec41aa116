import MusicImport.Catalog.Basic

/-! The columns of a row. Numbers stand in columns of 64 bits with a sign; a field that is read takes as
many of the low bits as it has. -/
namespace MusicImport

/-- The low bits of a number, read without a sign. -/
def lowUnsigned (bits : Nat) (i : Int) : Nat := (BitVec.ofInt bits i).toNat

/-- The low bits of a number, read with a sign in two's complement. -/
def lowSigned (bits : Nat) (i : Int) : Int := (BitVec.ofInt bits i).toInt

/-- What a row of an item holds of its track. The fingerprint has no column. -/
structure ItemColumns where
  path : String
  title : Option String
  artist : Option String
  album : Option String
  albumArtist : Option String
  trackNumber : Option Int
  trackTotal : Option Int
  discNumber : Option Int
  discTotal : Option Int
  year : Option Int
  label : Option String
  catalogNumber : Option String
  length : Option Int
  trackId : Option String
  albumId : Option String
deriving DecidableEq

/-- The columns that a track is written to. A length may take the bit of the sign. -/
def Track.columns (t : Track) : ItemColumns :=
  { path := t.path.text, title := t.title, artist := t.artist, album := t.album
    albumArtist := t.albumArtist
    trackNumber := t.trackNumber.map Nat.cast, trackTotal := t.trackTotal.map Nat.cast
    discNumber := t.discNumber.map Nat.cast, discTotal := t.discTotal.map Nat.cast
    year := t.year, label := t.label, catalogNumber := t.catalogNumber
    length := t.length.map fun n => lowSigned 64 n
    trackId := t.trackId, albumId := t.albumId }

/-- The track that columns are read as. -/
def ItemColumns.track (c : ItemColumns) : Track :=
  { path := ⟨c.path⟩, title := c.title, artist := c.artist, album := c.album
    albumArtist := c.albumArtist
    trackNumber := c.trackNumber.map (lowUnsigned 32), trackTotal := c.trackTotal.map (lowUnsigned 32)
    discNumber := c.discNumber.map (lowUnsigned 32), discTotal := c.discTotal.map (lowUnsigned 32)
    year := c.year.map (lowSigned 32), label := c.label, catalogNumber := c.catalogNumber
    length := c.length.map (lowUnsigned 64), fingerprint := none
    trackId := c.trackId, albumId := c.albumId }

/-- A track as it comes back from its row. -/
def Track.kept (t : Track) : Track := t.columns.track

/-- An album as it comes back from its row. -/
def NewAlbum.kept (a : NewAlbum) : NewAlbum := { a with year := a.year.map (lowSigned 32) }

end MusicImport
