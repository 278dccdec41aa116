import MusicImport.Candidate
import MusicImport.Scoring.Alignment
import MusicImport.Scoring.Distance
import MusicImport.Scoring.EditDistance
import MusicImport.Scoring.LocalAlbum
import MusicImport.Scoring.Weights

/-! Distances of tracks, of single files and of whole albums to what a source proposes. A field
counts only where both sides have it. -/
namespace MusicImport

section
variable {α : Type} [Scalar α]
open Scalar

/-- The difference of two natural numbers. -/
def natDiff (a b : Nat) : Nat := (a - b) + (b - a)

/-- Zero within the grace, then linear up to the maximum. Lengths are in milliseconds. -/
def lengthFraction (w : DistanceWeights α) (lengthA lengthB : Nat) : α :=
  let delta : α := ofNat (natDiff lengthA lengthB) / ofNat 1000
  if le delta w.trackLengthGrace then zero
  else Scalar.min ((delta - w.trackLengthGrace) / (w.trackLengthMax - w.trackLengthGrace)) one

/-- A sum of weighted fractions and the sum of their weights. -/
structure WeightedMean (α : Type) where
  total : α
  weight : α

def WeightedMean.empty : WeightedMean α := ⟨zero, zero⟩

def WeightedMean.add (m : WeightedMean α) (weight fraction : α) : WeightedMean α :=
  ⟨m.total + weight * clamp fraction, m.weight + weight⟩

def WeightedMean.addSome (m : WeightedMean α) (weight : α) : Option α → WeightedMean α
  | some fraction => m.add weight fraction
  | none => m

def WeightedMean.value (m : WeightedMean α) : α :=
  if le m.weight zero then zero else clamp (m.total / m.weight)

/-- One where values differ. -/
def mismatch (differs : Bool) : α := if differs then one else zero

/-- The difference of track numbers over its span; a full one on different discs. -/
def indexFraction (w : DistanceWeights α) (t : Track) (c : CandidateTrack) : Option α :=
  match t.trackNumber, c.trackNumber with
  | some a, some b =>
    let otherDisc :=
      match t.discNumber, c.medium with
      | some d, some m => d != m
      | _, _ => false
    some (if otherDisc then one else ofNat (natDiff a b) / w.trackIndexSpan)
  | _, _ => none

/-- Combines two values where both are there. -/
def both {β γ : Type} (a b : Option β) (f : β → β → γ) : Option γ :=
  match a, b with
  | some x, some y => some (f x y)
  | _, _ => none

/-- Distance of a local track to a candidate track, between zero and one. -/
def trackDistance (w : DistanceWeights α) (variousArtists : Bool) (t : Track)
    (c : CandidateTrack) : α :=
  let mean := WeightedMean.empty.add w.trackTitle (textDistance t.displayTitle c.title)
  let mean := mean.addSome w.trackIndex (indexFraction w t c)
  let mean := mean.addSome w.trackLength (both t.length c.length (lengthFraction w))
  let mean :=
    if variousArtists then mean.addSome w.trackArtist (both t.artist c.artist textDistance)
    else mean
  mean.value

/-- The cost of an alignment with `k` full-distance pairs. -/
def pairedBound (w : DistanceWeights α) (nLocal nCandidate k : Nat) : α :=
  w.tracks * ofNat k + w.missingTrack * ofNat (nCandidate - k) +
    w.unmatchedTrack * ofNat (nLocal - k)

/-- The most that aligned tracks can cost: no pair, or as many as there can be. -/
def tracksBound (w : DistanceWeights α) (nLocal nCandidate : Nat) : α :=
  Scalar.max (pairedBound w nLocal nCandidate 0)
    (pairedBound w nLocal nCandidate (Nat.min nLocal nCandidate))

/-- Adds a fraction if there is one. -/
def Distance.addSome (d : Distance α) (field : DistanceField) (weight : α) :
    Option α → Distance α
  | some fraction => d.addFraction field weight fraction
  | none => d

/-- Whether an id is other than the candidate's, where the candidate has one. -/
def idMismatch (localId : Option String) (candidateId : String) : Option α :=
  match localId with
  | some id => if candidateId = "" then none else some (mismatch (id != candidateId))
  | none => none

/-- Years over their span. -/
def yearFraction (w : DistanceWeights α) (a b : Int) : α := ofNat (a - b).natAbs / w.yearSpan

/-- The alignment of local tracks with an album's tracks. -/
def alignTracks (w : DistanceWeights α) (tracks : List Track) (c : AlbumCandidate) :
    AlignmentResult α :=
  let locals := tracks.toArray
  let candidates := c.tracks.toArray
  align tracks.length c.tracks.length ⟨w.missingTrack, w.unmatchedTrack⟩ fun i j =>
    match locals[i]?, candidates[j]? with
    | some t, some ct => w.tracks * trackDistance w c.variousArtists t ct
    | _, _ => zero

/-- What the album fields of the two sides differ in. -/
def albumFieldsDistance (w : DistanceWeights α) (l : LocalAlbum) (c : AlbumCandidate) :
    Distance α :=
  let d := Distance.empty.addSome .artist w.artist (l.artist.map (textDistance · c.artist))
  let d := d.addSome .album w.album (l.album.map (textDistance · c.album))
  let d := d.addSome .year w.year (both l.year c.year (yearFraction w))
  let d := d.addSome .mediums w.mediums (both l.mediums c.mediums fun a b => mismatch (a != b))
  let d := d.addSome .label w.label (both l.label c.label textDistance)
  let d := d.addSome .catalogNumber w.catalogNumber
    (both l.catalogNumber c.catalogNumber fun a b =>
      mismatch (Text.normalize a != Text.normalize b))
  d.addSome .albumId w.albumId (idMismatch l.albumId c.id)

/-- Distance of a group of tracks to an album, with the alignment of the tracks. -/
def albumDistance (w : DistanceWeights α) (tracks : List Track) (c : AlbumCandidate) :
    Distance α × Alignment :=
  let aligned := alignTracks w tracks c
  ((albumFieldsDistance w (LocalAlbum.ofTracks tracks) c).addPenalty .tracks aligned.cost
    (tracksBound w tracks.length c.tracks.length), aligned.alignment)

/-- Distance of a single file to a proposed recording. -/
def itemDistance (w : DistanceWeights α) (t : Track) (c : TrackCandidate) : Distance α :=
  let d := Distance.empty.addFraction .title w.trackTitle (textDistance t.displayTitle c.title)
  let d := d.addSome .artist w.trackArtist (both t.artist c.artist textDistance)
  let d := d.addSome .length w.trackLength (both t.length c.length (lengthFraction w))
  d.addSome .trackId w.trackId (idMismatch t.trackId c.id)

end
end MusicImport
