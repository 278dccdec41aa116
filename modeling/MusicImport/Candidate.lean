/-! What metadata sources propose for local tracks. -/
namespace MusicImport

/-- One track of a proposed album. -/
structure CandidateTrack where
  title : String
  id : Option String := none
  artist : Option String := none
  trackNumber : Option Nat := none
  medium : Option Nat := none
  /-- Length in milliseconds. -/
  length : Option Nat := none
deriving DecidableEq

/-- A proposed album. Source and priority are stamped when it is collected. -/
structure AlbumCandidate where
  id : String
  artist : String
  album : String
  tracks : List CandidateTrack
  source : String := ""
  priority : Nat := 0
  year : Option Int := none
  label : Option String := none
  country : Option String := none
  catalogNumber : Option String := none
  mediums : Option Nat := none
  variousArtists : Bool := false
deriving DecidableEq

/-- A proposed recording for a single file. -/
structure TrackCandidate where
  id : String
  title : String
  source : String := ""
  priority : Nat := 0
  artist : Option String := none
  album : Option String := none
  year : Option Int := none
  length : Option Nat := none
deriving DecidableEq

/-- A proposal of either kind. -/
inductive Candidate
  | album (candidate : AlbumCandidate)
  | track (candidate : TrackCandidate)
deriving DecidableEq

namespace Candidate

def id : Candidate → String
  | .album a => a.id
  | .track t => t.id

def source : Candidate → String
  | .album a => a.source
  | .track t => t.source

/-- Place of the source in order of registration. -/
def priority : Candidate → Nat
  | .album a => a.priority
  | .track t => t.priority

def year : Candidate → Option Int
  | .album a => a.year
  | .track t => t.year

/-- Artist and title that the candidate goes by. -/
def parts : Candidate → String × String
  | .album a => (a.artist, a.album)
  | .track t => (t.artist.getD "", t.title)

def trackCount : Candidate → Nat
  | .album a => a.tracks.length
  | .track _ => 1

end Candidate
end MusicImport
