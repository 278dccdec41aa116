import MusicImport.Scoring.Scalar

/-! How much each compared field weighs, and when a match may be accepted without asking. -/
namespace MusicImport

/-- Weights of the compared fields, and the spans over which differences grow to full ones. -/
structure DistanceWeights (α : Type) where
  artist : α
  album : α
  year : α
  mediums : α
  label : α
  catalogNumber : α
  albumId : α
  /-- Factor of the distance of a pair of tracks. -/
  tracks : α
  /-- Cost of a candidate track that is not there locally. -/
  missingTrack : α
  /-- Cost of a local track without a counterpart. -/
  unmatchedTrack : α
  trackTitle : α
  trackArtist : α
  trackIndex : α
  trackLength : α
  trackId : α
  /-- Difference in seconds that costs nothing. -/
  trackLengthGrace : α
  /-- Difference in seconds that costs everything. -/
  trackLengthMax : α
  yearSpan : α
  trackIndexSpan : α

/-- Scoring and acceptance. -/
structure MatchConfig (α : Type) where
  /-- Least similarity that is accepted without asking. -/
  autoAcceptThreshold : α
  /-- Two best candidates of different sources closer than this need a decision. -/
  disagreementMargin : α
  missingTracksBlockAuto : Bool
  unmatchedTracksBlockAuto : Bool
  weights : DistanceWeights α

def DistanceWeights.standard : DistanceWeights Float :=
  { artist := 3.0, album := 3.0, year := 1.0, mediums := 1.0, label := 0.5
    catalogNumber := 0.5, albumId := 5.0, tracks := 1.0, missingTrack := 0.9
    unmatchedTrack := 0.6, trackTitle := 3.0, trackArtist := 2.0, trackIndex := 1.0
    trackLength := 2.0, trackId := 5.0, trackLengthGrace := 10.0, trackLengthMax := 30.0
    yearSpan := 10.0, trackIndexSpan := 1.0 }

def MatchConfig.standard : MatchConfig Float :=
  { autoAcceptThreshold := 0.96, disagreementMargin := 0.02, missingTracksBlockAuto := true
    unmatchedTracksBlockAuto := true, weights := .standard }

/-- What is wrong with scoring settings. -/
inductive MatchConfigFault (α : Type)
  | threshold (value : α)
  | margin (value : α)
  | weight (name : String) (value : α)
  | lengthSpan
  | spans

section
variable {α : Type} [Scalar α]
open Scalar

/-- The weights that have to be finite and not negative, under the names of their settings. -/
def DistanceWeights.named (w : DistanceWeights α) : List (String × α) :=
  [("artist", w.artist), ("album", w.album), ("year", w.year), ("mediums", w.mediums),
   ("label", w.label), ("catalogNumber", w.catalogNumber), ("albumId", w.albumId),
   ("tracks", w.tracks), ("missingTrack", w.missingTrack), ("unmatchedTrack", w.unmatchedTrack),
   ("trackTitle", w.trackTitle), ("trackArtist", w.trackArtist), ("trackIndex", w.trackIndex),
   ("trackLength", w.trackLength), ("trackId", w.trackId),
   ("trackLengthGraceSecs", w.trackLengthGrace)]

/-- The first fault of the weights. -/
def DistanceWeights.fault? (w : DistanceWeights α) : Option (MatchConfigFault α) :=
  match w.named.find? fun (_, v) => !isFinite v || lt v zero with
  | some (name, v) => some (.weight name v)
  | none =>
    if le w.trackLengthMax w.trackLengthGrace then some .lengthSpan
    else if le w.yearSpan zero || le w.trackIndexSpan zero then some .spans
    else none

/-- A number from zero to one. -/
def inUnit (v : α) : Bool := le zero v && le v one

/-- The first fault of the settings. -/
def MatchConfig.fault? (c : MatchConfig α) : Option (MatchConfigFault α) :=
  if !inUnit c.autoAcceptThreshold then some (.threshold c.autoAcceptThreshold)
  else if !inUnit c.disagreementMargin then some (.margin c.disagreementMargin)
  else c.weights.fault?

end
end MusicImport
