import MusicImport.Candidate
import MusicImport.Track

/-! Sources that propose metadata. -/
namespace MusicImport

/-- What comes back from a source: a value, a failure, or nothing in time. -/
inductive Reply (α : Type)
  | value (a : α)
  | failure (text : String)
  | silence

def Reply.map {α β : Type} (f : α → β) : Reply α → Reply β
  | .value a => .value (f a)
  | .failure text => .failure text
  | .silence => .silence

/-- A source answers searches for albums and recordings, and looks both up by id. -/
structure MetadataSource where
  name : String
  albums : List Track → Option String → Option String → Bool → Reply (List AlbumCandidate)
  recordings : Track → Option String → Option String → Reply (List TrackCandidate)
  albumById : String → Reply (Option AlbumCandidate)
  recordingById : String → Reply (Option TrackCandidate)

namespace MetadataSource

/-- A source with a fixed stock, which every search finds whole and an id lookup finds the first
match in. -/
def ofStock (name : String) (albums : List AlbumCandidate) (recordings : List TrackCandidate) :
    MetadataSource :=
  { name
    albums := fun _ _ _ _ => .value albums
    recordings := fun _ _ _ => .value recordings
    albumById := fun id => .value (albums.find? (·.id = id))
    recordingById := fun id => .value (recordings.find? (·.id = id)) }

/-- A source whose every answer is a failure. -/
def failing (name text : String) : MetadataSource :=
  { name
    albums := fun _ _ _ _ => .failure text
    recordings := fun _ _ _ => .failure text
    albumById := fun _ => .failure text
    recordingById := fun _ => .failure text }

/-- A source that never answers. -/
def silent (name : String) : MetadataSource :=
  { name
    albums := fun _ _ _ _ => .silence
    recordings := fun _ _ _ => .silence
    albumById := fun _ => .silence
    recordingById := fun _ => .silence }

end MetadataSource
end MusicImport
