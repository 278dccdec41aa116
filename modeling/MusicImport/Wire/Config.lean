import MusicImport.Config
import MusicImport.Wire.Decision
import MusicImport.Wire.Track

/-! Settings in JSON. Every setting has a default and may be left out. -/
namespace MusicImport
open Json

def FileStrategy.name : FileStrategy → String
  | .move => "move"
  | .copy => "copy"
  | .reference => "reference"

def FileStrategy.all : List FileStrategy := [.move, .copy, .reference]

def FileStrategy.ofJson? : Json → Option FileStrategy :=
  Json.name? (FileStrategy.all.map fun s => (s.name, s))

def QuietFallback.name : QuietFallback → String
  | .skip => "skip"
  | .asIs => "as_is"

def QuietFallback.ofJson? : Json → Option QuietFallback :=
  Json.name? [("skip", .skip), ("as_is", .asIs)]

namespace DistanceWeights

/-- The weights under the names of their settings. -/
def settings (w : DistanceWeights Float) : List (String × Float) :=
  w.named ++ [("trackLengthMaxSecs", w.trackLengthMax), ("yearSpan", w.yearSpan),
    ("trackIndexSpan", w.trackIndexSpan)]

def toJson (number : Float → Json) (w : DistanceWeights Float) : Json :=
  .object (w.settings.map fun (name, v) => (name, number v))

/-- Reads the weights that are given, numbers by `number`, over others. -/
def ofJson? (number : Json → Option Float) (w : DistanceWeights Float) (j : Json) :
    Option (DistanceWeights Float) := do
  let read (s : Slot) (v : Float) := s.orDefault number v
  match ← j.record? ["artist", "album", "year", "mediums", "label", "catalogNumber", "albumId",
    "tracks", "missingTrack", "unmatchedTrack", "trackTitle", "trackArtist", "trackIndex",
    "trackLength", "trackId", "trackLengthGraceSecs", "trackLengthMaxSecs", "yearSpan",
    "trackIndexSpan"] with
  | [artist, album, year, mediums, label, catalogNumber, albumId, tracks, missingTrack,
      unmatchedTrack, trackTitle, trackArtist, trackIndex, trackLength, trackId, grace, max,
      yearSpan, indexSpan] =>
    return {
      artist := ← read artist w.artist
      album := ← read album w.album
      year := ← read year w.year
      mediums := ← read mediums w.mediums
      label := ← read label w.label
      catalogNumber := ← read catalogNumber w.catalogNumber
      albumId := ← read albumId w.albumId
      tracks := ← read tracks w.tracks
      missingTrack := ← read missingTrack w.missingTrack
      unmatchedTrack := ← read unmatchedTrack w.unmatchedTrack
      trackTitle := ← read trackTitle w.trackTitle
      trackArtist := ← read trackArtist w.trackArtist
      trackIndex := ← read trackIndex w.trackIndex
      trackLength := ← read trackLength w.trackLength
      trackId := ← read trackId w.trackId
      trackLengthGrace := ← read grace w.trackLengthGrace
      trackLengthMax := ← read max w.trackLengthMax
      yearSpan := ← read yearSpan w.yearSpan
      trackIndexSpan := ← read indexSpan w.trackIndexSpan }
  | _ => none

end DistanceWeights

namespace MatchConfig

def toJson (number : Float → Json) (c : MatchConfig Float) : Json :=
  .object [("autoAcceptThreshold", number c.autoAcceptThreshold),
    ("disagreementMargin", number c.disagreementMargin),
    ("missingTracksBlockAuto", .bool c.missingTracksBlockAuto),
    ("unmatchedTracksBlockAuto", .bool c.unmatchedTracksBlockAuto),
    ("weights", c.weights.toJson number)]

def ofJson? (number : Json → Option Float) (c : MatchConfig Float) (j : Json) :
    Option (MatchConfig Float) := do
  match ← j.record? ["autoAcceptThreshold", "disagreementMargin", "missingTracksBlockAuto",
    "unmatchedTracksBlockAuto", "weights"] with
  | [threshold, margin, missing, unmatched, weights] =>
    return {
      autoAcceptThreshold := ← threshold.orDefault number c.autoAcceptThreshold
      disagreementMargin := ← margin.orDefault number c.disagreementMargin
      missingTracksBlockAuto := ← missing.orDefault bool? c.missingTracksBlockAuto
      unmatchedTracksBlockAuto := ← unmatched.orDefault bool? c.unmatchedTracksBlockAuto
      weights := ← weights.orDefault (c.weights.ofJson? number) c.weights }
  | _ => none

end MatchConfig

namespace ImportConfig

def toJson (number : Float → Json) (c : ImportConfig) : Json :=
  .object [("libraryPath", ofPath c.libraryPath), ("fileStrategy", .text c.fileStrategy.name),
    ("writeTags", .bool c.writeTags), ("singletons", .bool c.singletons),
    ("resume", .bool c.resume), ("forceReprocess", .bool c.forceReprocess),
    ("journalPath", ofPath c.journalPath), ("pathTemplate", .text c.pathTemplate),
    ("queueCapacity", .ofNat c.queueCapacity), ("searchTimeoutSecs", .ofNat c.searchTimeout),
    ("verifyTransfers", .bool c.verifyTransfers), ("quietFallback", .text c.quietFallback.name),
    ("duplicateAction", c.duplicateAction.toJson), ("matching", c.matching.toJson number)]

/-- Reads the settings that are given over others. -/
def ofJson? (number : Json → Option Float) (c : ImportConfig) (j : Json) :
    Option ImportConfig := do
  match ← j.record? ["libraryPath", "fileStrategy", "writeTags", "singletons", "resume",
    "forceReprocess", "journalPath", "pathTemplate", "queueCapacity", "searchTimeoutSecs",
    "verifyTransfers", "quietFallback", "duplicateAction", "matching"] with
  | [libraryPath, fileStrategy, writeTags, singletons, resume, forceReprocess, journalPath,
      pathTemplate, queueCapacity, searchTimeout, verifyTransfers, quietFallback,
      duplicateAction, matching] =>
    return {
      libraryPath := ← libraryPath.orDefault path? c.libraryPath
      fileStrategy := ← fileStrategy.orDefault FileStrategy.ofJson? c.fileStrategy
      writeTags := ← writeTags.orDefault bool? c.writeTags
      singletons := ← singletons.orDefault bool? c.singletons
      resume := ← resume.orDefault bool? c.resume
      forceReprocess := ← forceReprocess.orDefault bool? c.forceReprocess
      journalPath := ← journalPath.orDefault path? c.journalPath
      pathTemplate := ← pathTemplate.orDefault text? c.pathTemplate
      queueCapacity := ← queueCapacity.orDefault (nat? 64) c.queueCapacity
      searchTimeout := ← searchTimeout.orDefault (nat? 64) c.searchTimeout
      verifyTransfers := ← verifyTransfers.orDefault bool? c.verifyTransfers
      quietFallback := ← quietFallback.orDefault QuietFallback.ofJson? c.quietFallback
      duplicateAction := ← duplicateAction.orDefault DuplicateDecision.ofJson? c.duplicateAction
      matching := ← matching.orDefault (c.matching.ofJson? number) c.matching }
  | _ => none

end ImportConfig
end MusicImport
