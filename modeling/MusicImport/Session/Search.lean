import MusicImport.Session.Basic

/-! Collecting candidates for a task: what its tracks suggest, and what the sources propose. -/
namespace MusicImport

/-- What the tracks of a task suggest to search for. -/
structure Likelies where
  artist : Option String
  album : Option String
  title : Option String
  albumId : Option String
  trackId : Option String
  /-- Probably an album of various artists. -/
  variousArtists : Bool
deriving DecidableEq

namespace Likelies

/-- Names in normal form that stand for various artists. -/
def variousNames : List String := ["various artists", "various", "va", "v a"]

/-- Artists of single tracks that differ in normal form. -/
def distinctArtists (tracks : List Track) : List String :=
  (((tracks.filterMap (·.artist)).map Text.normalize).filter (· != "")).eraseDups

def ofTask (t : Task) : Likelies :=
  let artist :=
    if t.isAlbum then t.consensus (·.effectiveAlbumArtist) else t.consensus (·.artist)
  { artist
    album := t.consensus (·.album)
    title := t.tracks.head?.map (·.displayTitle)
    albumId := t.consensus (·.albumId)
    trackId := t.consensus (·.trackId)
    variousArtists := t.isAlbum && (1 < (distinctArtists t.tracks).length ||
      artist.any fun a => variousNames.contains (Text.normalize a)) }

end Likelies

/-- A source with its place in the order of registration. -/
structure RankedSource where
  source : MetadataSource
  priority : Nat

def rankedSources (sources : List MetadataSource) : List RankedSource :=
  sources.mapIdx fun i s => ⟨s, i⟩

/-- Marks a candidate with the source it comes from. -/
def RankedSource.stamp (s : RankedSource) : Candidate → Candidate
  | .album a => .album { a with source := s.source.name, priority := s.priority }
  | .track t => .track { t with source := s.source.name, priority := s.priority }

/-- Keeps the first candidate of each id. -/
def distinctById : List Candidate → List Candidate
  | [] => []
  | c :: cs => c :: (distinctById cs).filter (·.id ≠ c.id)

namespace Session

/-- Asks one source. A failure or silence is as good as no candidates. -/
def askSource (env : Environment) (query : SearchQuery)
    (reply : Reply (List Candidate)) (s : RankedSource) : Act (List Candidate) := do
  record (.searched s.source.name query)
  match ← enter env query.call, reply with
  | none, .value found => return found.map s.stamp
  | _, _ => return []

/-- Asks every source in turn. -/
def askAll (ask : RankedSource → Act (List Candidate)) :
    List RankedSource → Act (List Candidate)
  | [] => return []
  | s :: rest => do
    let found ← ask s
    return found ++ (← askAll ask rest)

def searchAlbums (env : Environment) (t : Task) (artist album : Option String) (various : Bool) :
    Act (List Candidate) :=
  askAll (fun s => askSource env (.albums t.tracks.length artist album various)
    ((s.source.albums t.tracks artist album various).map (·.map .album)) s)
    (rankedSources env.sources)

def searchRecordings (env : Environment) (t : Task) (artist title : Option String) :
    Act (List Candidate) :=
  match t.tracks.head? with
  | none => return []
  | some track =>
    askAll (fun s => askSource env (.recordings track.path artist title)
      ((s.source.recordings track artist title).map (·.map .track)) s)
      (rankedSources env.sources)

def albumsById (env : Environment) (id : String) : Act (List Candidate) :=
  askAll (fun s => askSource env (.albumId id)
    ((s.source.albumById id).map (·.toList.map .album)) s)
    (rankedSources env.sources)

def recordingsById (env : Environment) (id : String) : Act (List Candidate) :=
  askAll (fun s => askSource env (.recordingId id)
    ((s.source.recordingById id).map (·.toList.map .track)) s)
    (rankedSources env.sources)

/-- Looks an id up, if there is one. -/
def lookUp (byId : String → Act (List Candidate)) : Option String → Act (List Candidate)
  | some id => byId id
  | none => return []

/-- What all sources propose for a task: by id first, then by search. -/
def collect (env : Environment) (t : Task) : Act (List Candidate) := do
  let l := Likelies.ofTask t
  if t.isAlbum then
    let known ← lookUp (albumsById env) l.albumId
    return distinctById (known ++ (← searchAlbums env t l.artist l.album l.variousArtists))
  else
    let known ← lookUp (recordingsById env) l.trackId
    return distinctById (known ++ (← searchRecordings env t l.artist l.title))

/-- What all sources propose for a search that somebody asked for. -/
def collectManual (env : Environment) (t : Task) (q : ManualQuery) : Act (List Candidate) := do
  match q, t.isAlbum with
  | .id value, true => return distinctById (← albumsById env value)
  | .id value, false => return distinctById (← recordingsById env value)
  | .terms artist title, true =>
    return distinctById
      (← searchAlbums env t (some artist) (some title) (Likelies.ofTask t).variousArtists)
  | .terms artist title, false =>
    return distinctById (← searchRecordings env t (some artist) (some title))

end Session
end MusicImport
