import MusicImport.Catalog.Basic
import MusicImport.Config
import MusicImport.Journal.Snapshot
import MusicImport.Session.Source
import MusicImport.Tags.Store
import MusicImport.Task.Call

/-! The state that an import works on, with the record of what it asked and told, and the
surroundings it works in: settings, sources, and the answers to its questions. Calls are counted,
so that any of them can be made to fail or to raise the abort signal. -/
namespace MusicImport

/-- Calls to the outside. -/
inductive Call
  | candidates
  | itemCandidates
  | albumForId
  | trackForId
  | findDuplicates
  | albumItems
  | item
  | pathsUnder
  | transaction
  | add
  | addAlbum
  | remove
  | commit
  | rollback
  | read
  | write
  | chooseMatch
  | resolveDuplicate
  | onImport
deriving DecidableEq

def Call.all : List Call :=
  [.candidates, .itemCandidates, .albumForId, .trackForId, .findDuplicates, .albumItems, .item,
   .pathsUnder, .transaction, .add, .addAlbum, .remove, .commit, .rollback, .read, .write,
   .chooseMatch, .resolveDuplicate, .onImport]

def Call.name : Call → String
  | .candidates => "candidates"
  | .itemCandidates => "item_candidates"
  | .albumForId => "album_for_id"
  | .trackForId => "track_for_id"
  | .findDuplicates => "find_duplicates"
  | .albumItems => "album_items"
  | .item => "item"
  | .pathsUnder => "paths_under"
  | .transaction => "transaction"
  | .add => "add"
  | .addAlbum => "add_album"
  | .remove => "remove"
  | .commit => "commit"
  | .rollback => "rollback"
  | .read => "read"
  | .write => "write"
  | .chooseMatch => "choose_match"
  | .resolveDuplicate => "resolve_duplicate"
  | .onImport => "on_import"

/-- A call of a kind: the `n`-th, or every one where `n` is zero. -/
structure CallPoint where
  call : Call
  nth : Nat
deriving DecidableEq

def CallPoint.isAt (p : CallPoint) (call : Call) (n : Nat) : Bool :=
  p.call = call && (p.nth = 0 || p.nth = n)

/-- A call that fails. -/
structure Fault where
  point : CallPoint
  failure : ServiceFailure

/-- A search that goes to a source. -/
inductive SearchQuery
  | albums (trackCount : Nat) (artist album : Option String) (variousArtists : Bool)
  | recordings (path : FilePath) (artist title : Option String)
  | albumId (id : String)
  | recordingId (id : String)

/-- The call that a search is. -/
def SearchQuery.call : SearchQuery → Call
  | .albums _ _ _ _ => .candidates
  | .recordings _ _ _ => .itemCandidates
  | .albumId _ => .albumForId
  | .recordingId _ => .trackForId

/-- A committed import as observers are told of it. -/
structure ImportEvent where
  key : GroupKey
  identity : Identity
  entries : List EntryId
  replaced : List EntryId
  paths : List FilePath
  asIs : Bool

/-- What an import did that can be seen from outside. -/
inductive Event
  | searched (source : String) (query : SearchQuery)
  | asked (key : GroupKey) (state : TaskState) (ranked : List (String × Float))
  | duplicate (key : GroupKey) (existing : List CatalogEntry)
  | failed (key : GroupKey) (message : String)
  | wrote (path : FilePath) (fields : TagFields)
  | imported (observer : String) (event : ImportEvent)

/-- The answers to questions that nobody prepared an answer for. -/
structure StandingAnswers where
  fallback : QuietFallback := .skip
  duplicates : DuplicateDecision := .skipNew
deriving DecidableEq

/-- The answers that the settings give. -/
def ImportConfig.standingAnswers (c : ImportConfig) : StandingAnswers :=
  ⟨c.quietFallback, c.duplicateAction⟩

/-- What stays the same during an import. -/
structure Environment where
  config : ImportConfig
  sources : List MetadataSource := []
  layout : Layout
  observers : List String := []
  standing : StandingAnswers := {}
  journal : JournalSnapshot := {}
  faults : List Fault := []
  raises : List CallPoint := []

/-- The environment with the journal that its settings name. -/
def Environment.withJournal (env : Environment) (t : FileTree) :
    Except ImportFailure Environment := do
  return { env with journal := ← JournalSnapshot.load t env.config.journalPath }

/-- What an import changes. -/
structure Session where
  files : FileTree
  tags : TagStore := .records {}
  catalog : Catalog := {}
  /-- The abort signal; it is never taken back. -/
  aborted : Bool := false
  /-- How many more looks at the abort signal come before somebody outside raises it. -/
  interrupt : Option Nat := none
  /-- Calls so far, the last one first. -/
  calls : List Call := []
  /-- Answers still to be given. -/
  decisions : List MatchDecision := []
  duplicates : List DuplicateDecision := []
  log : List Event := []

/-- A step that cannot fail. -/
abbrev Act := StateM Session

/-- A step that can fail; what it did before stays done. -/
abbrev Attempt (ε : Type) := ExceptT ε (StateM Session)

namespace Session

def record (e : Event) : Act Unit := modify fun s => { s with log := s.log ++ [e] }

/-- The session at the next look at the abort signal. -/
def look (s : Session) : Session :=
  match s.interrupt with
  | some 0 => { s with aborted := true }
  | some (n + 1) => { s with interrupt := some n }
  | none => s

def isAborted : Act Bool := do
  modify look
  return (← get).aborted

def raiseAbort : Act Unit := modify fun s => { s with aborted := true }

/-- Counts a call, raises the abort signal if it is to, and tells whether the call fails. -/
def enter (env : Environment) (call : Call) : Act (Option ServiceFailure) := do
  let s ← get
  let n := s.calls.count call + 1
  set { s with
    calls := call :: s.calls
    aborted := s.aborted || env.raises.any (·.isAt call n) }
  return (env.faults.find? (·.point.isAt call n)).map (·.failure)

/-- Counts a call and fails where it is to fail. -/
def attempt (env : Environment) (call : Call) : Attempt ServiceFailure Unit := do
  match ← enter env call with
  | some failure => throw failure
  | none => return ()

/-- Takes a step whose failure does not matter. -/
def regardless {ε : Type} (x : Attempt ε Unit) : Act Unit := do
  let _ ← x.run
  return ()

/-- Reads the tags of a file. -/
def readTags (env : Environment) (p : FilePath) : Attempt ServiceFailure Track := do
  attempt env .read
  let s ← get
  s.tags.read s.files p

/-- Writes values into the tags of a file. -/
def writeTags (env : Environment) (p : FilePath) (f : TagFields) :
    Attempt ServiceFailure Unit := do
  record (.wrote p f)
  attempt env .write
  let s ← get
  match s.tags.write s.files p f with
  | .ok (tags, files) => set { s with tags, files }
  | .error e =>
    set { s with files := s.tags.spoil s.files p f }
    throw e

def findDuplicates (env : Environment) (identity : Identity) :
    Attempt ServiceFailure (List CatalogEntry) := do
  attempt env .findDuplicates
  return (← get).catalog.findDuplicates identity

/-- The tracks of an entry. -/
def entryTracks (env : Environment) : EntryId → Attempt ServiceFailure (List Track)
  | .album id => do
    attempt env .albumItems
    return (← get).catalog.albumItems id
  | .item id => do
    attempt env .item
    return ((← get).catalog.item? id).toList

def pathsUnder (env : Environment) (dir : FilePath) :
    Attempt ServiceFailure (List FilePath) := do
  attempt env .pathsUnder
  return (← get).catalog.pathsUnder dir

/-- A transaction works on a copy, which only `commit` puts in place. -/
def begin (env : Environment) : Attempt ServiceFailure Catalog := do
  attempt env .transaction
  return (← get).catalog

def remove (env : Environment) (tx : Catalog) (id : EntryId) :
    Attempt ServiceFailure (List FilePath × Catalog) := do
  attempt env .remove
  tx.remove id

def addItems (env : Environment) (tx : Catalog) (tracks : List Track) :
    Attempt ServiceFailure (List Int × Catalog) := do
  attempt env .add
  return tx.add tracks

def addAlbum (env : Environment) (tx : Catalog) (album : NewAlbum) (tracks : List Track) :
    Attempt ServiceFailure (Int × Catalog) := do
  attempt env .addAlbum
  return tx.addAlbum album tracks

def commit (env : Environment) (tx : Catalog) : Attempt ServiceFailure Unit := do
  attempt env .commit
  modify fun s => { s with catalog := tx }

/-- Gives a transaction up. -/
def rollback (env : Environment) : Attempt ServiceFailure Unit := attempt env .rollback

end Session
end MusicImport
