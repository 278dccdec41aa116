import MusicImport.Scoring.LocalAlbum
import MusicImport.Task.Basic

/-! The values that a chosen outcome puts on the tracks of a task, and the album row it makes. -/
namespace MusicImport

/-- An external id, if it is not empty. -/
def knownId (id : String) : Option String := if id = "" then none else some id

/-- The values of an album for a track that stands for none of its tracks. -/
def AlbumCandidate.commonFields (a : AlbumCandidate) : TagFields :=
  { album := some a.album, albumArtist := some a.artist, year := a.year, label := a.label
    catalogNumber := a.catalogNumber, albumId := knownId a.id, discTotal := a.mediums }

/-- The values of an album for one of its tracks. Tracks are counted by medium. -/
def AlbumCandidate.trackFields (a : AlbumCandidate) (c : CandidateTrack) : TagFields :=
  { a.commonFields with
    title := some c.title, artist := some (c.artist.getD a.artist)
    trackNumber := c.trackNumber, discNumber := c.medium, trackId := c.id
    trackTotal := some (a.tracks.countP fun d => d.medium = c.medium) }

/-- The values of an album for the local track at an index. -/
def AlbumCandidate.fieldsAt (a : AlbumCandidate) (alignment : Alignment) (i : Nat) : TagFields :=
  match (alignment.candidateFor i).bind (a.tracks[·]?) with
  | some c => a.trackFields c
  | none => a.commonFields

/-- The values of a recording. -/
def TrackCandidate.fields (c : TrackCandidate) : TagFields :=
  { title := some c.title, artist := c.artist, album := c.album, year := c.year
    trackId := knownId c.id }

namespace Task

/-- The values that each track receives. A recording gives its own to the first track only. -/
def resolvedFields (t : Task) : Chosen → List TagFields
  | .asIs => t.tracks.map fun _ => {}
  | .matched m =>
    match m.candidate with
    | .album a => t.tracks.mapIdx fun i _ => a.fieldsAt m.alignment i
    | .track c => t.tracks.mapIdx fun i _ => if i = 0 then c.fields else {}

@[simp] theorem length_resolvedFields (t : Task) (choice : Chosen) :
    (t.resolvedFields choice).length = t.tracks.length := by
  unfold resolvedFields
  split
  · simp
  · split <;> simp

/-- The tracks with the values that they receive. -/
def resolvedTracks (t : Task) (choice : Chosen) : List Track :=
  t.tracks.zipWith Track.withFields (t.resolvedFields choice)

/-- The album row of a task: of the matched album, else what the tracks agree on. -/
def albumRow (t : Task) : Chosen → NewAlbum
  | .matched ⟨.album a, _, _, _⟩ =>
    { albumArtist := a.artist, album := a.album, year := a.year, label := a.label
      albumId := knownId a.id }
  | _ =>
    let own := LocalAlbum.ofTracks t.tracks
    { albumArtist := own.artist.getD "", album := own.album.getD "", year := own.year
      label := own.label, albumId := own.albumId }

end Task
end MusicImport
