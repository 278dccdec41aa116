import MusicImport.Track
import MusicImport.Consensus

/-! What the tracks of a group say about their album. -/
namespace MusicImport

/-- The most frequent value of each album field. -/
structure LocalAlbum where
  artist : Option String
  album : Option String
  year : Option Int
  label : Option String
  catalogNumber : Option String
  albumId : Option String
  /-- The largest number of discs named, else the number of different disc numbers. -/
  mediums : Option Nat
deriving DecidableEq

/-- The most frequent of the values that tracks carry, blanks around them dropped. -/
def mostCommonText? (tracks : List Track) (field : Track → Option String) : Option String :=
  mostCommon? (trimmedValues (tracks.filterMap field))

def LocalAlbum.ofTracks (tracks : List Track) : LocalAlbum :=
  let discs := (tracks.filterMap (·.discNumber)).eraseDups
  { artist := mostCommonText? tracks (·.effectiveAlbumArtist)
    album := mostCommonText? tracks (·.album)
    year := mostCommon? (tracks.filterMap (·.year))
    label := mostCommonText? tracks (·.label)
    catalogNumber := mostCommonText? tracks (·.catalogNumber)
    albumId := mostCommonText? tracks (·.albumId)
    mediums := (tracks.filterMap (·.discTotal)).max?.or
      (if discs.isEmpty then none else some discs.length) }

end MusicImport
