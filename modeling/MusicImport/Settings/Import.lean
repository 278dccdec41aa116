import MusicImport.Settings.Value
import MusicImport.Wire.Config

/-! The settings of an import as entries of a table. Every setting has a default. -/
namespace MusicImport

/-- The weights that a table gives, over others. -/
def DistanceWeights.ofSetting? (w : DistanceWeights Float) (s : Setting) :
    Option (DistanceWeights Float) := do
  let .table es := s | none
  let read (name : String) (v : Float) : Option Float := Setting.entry es name Setting.float? v
  return {
    artist := ← read "artist" w.artist
    album := ← read "album" w.album
    year := ← read "year" w.year
    mediums := ← read "mediums" w.mediums
    label := ← read "label" w.label
    catalogNumber := ← read "catalogNumber" w.catalogNumber
    albumId := ← read "albumId" w.albumId
    tracks := ← read "tracks" w.tracks
    missingTrack := ← read "missingTrack" w.missingTrack
    unmatchedTrack := ← read "unmatchedTrack" w.unmatchedTrack
    trackTitle := ← read "trackTitle" w.trackTitle
    trackArtist := ← read "trackArtist" w.trackArtist
    trackIndex := ← read "trackIndex" w.trackIndex
    trackLength := ← read "trackLength" w.trackLength
    trackId := ← read "trackId" w.trackId
    trackLengthGrace := ← read "trackLengthGraceSecs" w.trackLengthGrace
    trackLengthMax := ← read "trackLengthMaxSecs" w.trackLengthMax
    yearSpan := ← read "yearSpan" w.yearSpan
    trackIndexSpan := ← read "trackIndexSpan" w.trackIndexSpan }

/-- The scoring settings that a table gives, over others. -/
def MatchConfig.ofSetting? (c : MatchConfig Float) (s : Setting) :
    Option (MatchConfig Float) := do
  let .table es := s | none
  return {
    autoAcceptThreshold :=
      ← Setting.entry es "autoAcceptThreshold" Setting.float? c.autoAcceptThreshold
    disagreementMargin := ← Setting.entry es "disagreementMargin" Setting.float? c.disagreementMargin
    missingTracksBlockAuto :=
      ← Setting.entry es "missingTracksBlockAuto" Setting.bool? c.missingTracksBlockAuto
    unmatchedTracksBlockAuto :=
      ← Setting.entry es "unmatchedTracksBlockAuto" Setting.bool? c.unmatchedTracksBlockAuto
    weights := ← Setting.entry es "weights" c.weights.ofSetting? c.weights }

def Setting.path? (s : Setting) : Option FilePath := s.text?.map FilePath.mk

/-- The settings that a table gives, over others. -/
def ImportConfig.ofSetting? (c : ImportConfig) (s : Setting) : Option ImportConfig := do
  let .table es := s | none
  let strategies := FileStrategy.all.map fun x => (x.name, x)
  let fallbacks := [("skip", QuietFallback.skip), ("as_is", QuietFallback.asIs)]
  let duplicates := DuplicateDecision.all.map fun x => (x.name, x)
  return {
    libraryPath := ← Setting.entry es "libraryPath" Setting.path? c.libraryPath
    fileStrategy := ← Setting.entry es "fileStrategy" (Setting.name? strategies) c.fileStrategy
    writeTags := ← Setting.entry es "writeTags" Setting.bool? c.writeTags
    singletons := ← Setting.entry es "singletons" Setting.bool? c.singletons
    resume := ← Setting.entry es "resume" Setting.bool? c.resume
    forceReprocess := ← Setting.entry es "forceReprocess" Setting.bool? c.forceReprocess
    journalPath := ← Setting.entry es "journalPath" Setting.path? c.journalPath
    pathTemplate := ← Setting.entry es "pathTemplate" Setting.text? c.pathTemplate
    queueCapacity := ← Setting.entry es "queueCapacity" Setting.nat? c.queueCapacity
    searchTimeout := ← Setting.entry es "searchTimeoutSecs" Setting.nat? c.searchTimeout
    verifyTransfers := ← Setting.entry es "verifyTransfers" Setting.bool? c.verifyTransfers
    quietFallback := ← Setting.entry es "quietFallback" (Setting.name? fallbacks) c.quietFallback
    duplicateAction :=
      ← Setting.entry es "duplicateAction" (Setting.name? duplicates) c.duplicateAction
    matching := ← Setting.entry es "matching" c.matching.ofSetting? c.matching }

end MusicImport
