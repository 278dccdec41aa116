import MusicImport.Scoring.AlbumDistance

/-! Scored candidates, their order, and whether the best may be taken without asking. -/
namespace MusicImport

/-- A candidate with its distance and, for albums, the alignment of its tracks. -/
structure Match (α : Type) where
  candidate : Candidate
  alignment : Alignment
  distance : Distance α
  /-- Fewer pairs than local tracks. -/
  isPartial : Bool

/-- Why a best match needs a decision. -/
inductive ReviewReason
  | noCandidates
  | belowThreshold
  | missingTracks
  | unmatchedTracks
  | sourcesDisagree
deriving DecidableEq

def ReviewReason.text : ReviewReason → String
  | .noCandidates => "no candidates"
  | .belowThreshold => "best match below threshold"
  | .missingTracks => "best match has missing tracks"
  | .unmatchedTracks => "best match leaves tracks unmatched"
  | .sourcesDisagree => "sources disagree"

/-- Whether the best match may be applied at once. -/
inductive Recommendation
  | strong
  | review (reason : ReviewReason)
deriving DecidableEq

def Recommendation.text : Recommendation → String
  | .strong => "strong"
  | .review reason => reason.text

section
variable {α : Type} [Scalar α]
open Scalar

namespace Match

def similarity (m : Match α) : α := m.distance.similarity

/-- Candidate tracks that are not there locally. -/
def missingTracks (m : Match α) : Nat := m.alignment.missingCandidate.length

/-- Local tracks without a counterpart. -/
def unmatchedTracks (m : Match α) : Nat := m.alignment.unmatchedLocal.length

/-- Scores a candidate of the kind asked for: albums against all tracks, recordings against the
first. Candidates of the other kind have no score. -/
def score? (w : DistanceWeights α) (isAlbum : Bool) (tracks : List Track) :
    Candidate → Option (Match α)
  | .album c =>
    if isAlbum then
      let (distance, alignment) := albumDistance w tracks c
      some ⟨.album c, alignment, distance, alignment.pairs.length < tracks.length⟩
    else none
  | .track c =>
    if isAlbum then none
    else tracks.head?.map fun t =>
      ⟨.track c, { pairs := [(0, 0)] }, itemDistance w t c, false⟩

/-- Newer years first, unknown ones last. -/
def newerFirst : Option Int → Option Int → Ordering
  | some a, some b => Ord.compare b a
  | some _, none => .lt
  | none, some _ => .gt
  | none, none => .eq

/-- By distance, then by the priority of the source, then by year. -/
def compare (a b : Match α) : Ordering :=
  ((a.distance.compare b.distance).then
    (Ord.compare a.candidate.priority b.candidate.priority)).then
      (newerFirst a.candidate.year b.candidate.year)

/-- Best first; what compares equal keeps its order. -/
def rank (ms : List (Match α)) : List (Match α) := ms.mergeSort fun a b => a.compare b != .gt

/-- Every candidate of the kind asked for, best first. -/
def scoreAndRank (w : DistanceWeights α) (isAlbum : Bool) (tracks : List Track)
    (candidates : List Candidate) : List (Match α) :=
  rank (candidates.filterMap (score? w isAlbum tracks))

/-- Artist and title in normal form. -/
def normalParts (m : Match α) : String × String :=
  (Text.normalize m.candidate.parts.1, Text.normalize m.candidate.parts.2)

/-- Different sources name different releases, and their similarities are closer than the
margin. -/
def disagrees (margin : α) (best next : Match α) : Bool :=
  best.candidate.source != next.candidate.source && best.normalParts != next.normalParts &&
    lt (best.similarity - next.similarity) margin

end Match

/-- Whether the first of ranked matches may be applied at once, or the first reason against it. -/
def recommend (c : MatchConfig α) : List (Match α) → Recommendation
  | [] => .review .noCandidates
  | best :: rest =>
    if lt best.similarity c.autoAcceptThreshold then .review .belowThreshold
    else if c.missingTracksBlockAuto && best.missingTracks != 0 then .review .missingTracks
    else if c.unmatchedTracksBlockAuto && best.isPartial then .review .unmatchedTracks
    else
      match rest with
      | next :: _ =>
        if best.disagrees c.disagreementMargin next then .review .sourcesDisagree else .strong
      | [] => .strong

end
end MusicImport
