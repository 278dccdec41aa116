import MusicImport.Session.Basic
import MusicImport.Task.Fields

/-! Applying the chosen outcome of a task: transfers, tag writes, catalog rows, and the removal of
sources that were moved. Until the rows are committed a failure takes back what was done; steps
that an earlier attempt has behind it are not repeated. -/
namespace MusicImport

/-- What applying a task brought about. -/
structure Applied where
  entries : List EntryId
  paths : List FilePath
  completed : List ApplyStep
deriving DecidableEq

/-- A failure to apply, with the steps whose effects remain. -/
structure ApplyFailure where
  failure : ImportFailure
  completed : List ApplyStep
deriving DecidableEq

/-- Directories in ascending order, each once. -/
def distinctDirectories (paths : List FilePath) : List FilePath :=
  ((paths.filterMap (·.parent?)).foldl (fun dirs d => if dirs.any d.same then dirs else dirs ++ [d])
    []).mergeSort fun a b => a.compare b != .gt

namespace Session

/-- A failure of a service as the failure of a step. -/
def stepFailure (t : Task) (step : ApplyStep) (path : Option FilePath) (e : ServiceFailure) :
    ImportFailure :=
  .apply t.key step path (.service e)

/-- The files below directories that catalog entries own. -/
def pathsUnderAll (env : Environment) : List FilePath → Attempt ServiceFailure (List FilePath)
  | [] => return []
  | dir :: rest => do
    let paths ← pathsUnder env dir
    return paths ++ (← pathsUnderAll env rest)

/-- The files of entries. -/
def entryPaths (env : Environment) : List EntryId → Attempt ServiceFailure (List FilePath)
  | [] => return []
  | id :: rest => do
    let tracks ← entryTracks env id
    return tracks.map (·.path) ++ (← entryPaths env rest)

/-- Files that no other entry may share: those of the catalog in the directories of the
destinations, apart from the files of entries that the task replaces. -/
def claimedPaths (env : Environment) (t : Task) (dests : List FilePath) :
    Attempt ServiceFailure (List FilePath) := do
  let owned ← pathsUnderAll env (distinctDirectories dests)
  let freed ← entryPaths env t.replaces
  return owned.filter fun p => !isClaimed freed p

/-- Where the file of a track with its final values goes. -/
def destination (env : Environment) (r : Track) : FilePath :=
  env.config.libraryPath.join (env.layout.place r.fields r.path)

/-- What the transfers of a task may not share; references may share anything. -/
def transferClaims (env : Environment) (t : Task) (dests : List FilePath) :
    Attempt ImportFailure (List FilePath) :=
  if env.config.fileStrategy = .reference then return []
  else (claimedPaths env t dests).adapt (stepFailure t .transferFiles none)

/-- The files of tracks with the destinations that they are to have. -/
def destinations (env : Environment) (records : List Track) : List (FilePath × FilePath) :=
  (records.map (·.path)).zip (records.map (destination env))

/-- Brings the files of tracks into the library. -/
def transfer (env : Environment) (t : Task) (records : List Track) :
    Attempt ImportFailure (List Transfer) := do
  let claimed ← transferClaims env t (records.map (destination env))
  let s ← get
  let (result, files) := s.files.placeAll env.config.fileStrategy env.config.verifyTransfers []
    claimed (destinations env records)
  set { s with files }
  match result with
  | .ok transfers => return transfers
  | .error (source, e) => throw (.apply t.key .transferFiles (some source) e)

/-- Writes the values of tracks into their files in the library, where there are any. -/
def writeAllTags (env : Environment) (t : Task) :
    List (Transfer × TagFields) → Attempt ImportFailure Unit
  | [] => return ()
  | (transfer, fields) :: rest => do
    if !fields.isEmpty then
      (writeTags env transfer.dest fields).adapt (stepFailure t .writeTags (some transfer.dest))
    writeAllTags env t rest

/-- Removes entries one after the other. -/
def removeAll (env : Environment) : Catalog → List EntryId →
    Attempt ServiceFailure (List FilePath × Catalog)
  | tx, [] => return ([], tx)
  | tx, id :: rest => do
    let (paths, tx) ← remove env tx id
    let (more, tx) ← removeAll env tx rest
    return (paths ++ more, tx)

/-- Writes the rows of a task in a transaction. -/
def writeRows (env : Environment) (tx : Catalog) (t : Task) (choice : Chosen)
    (placed : List Track) : Attempt ServiceFailure (List EntryId × Catalog) := do
  let (_, tx) ← removeAll env tx t.replaces
  if t.isAlbum then
    let (id, tx) ← addAlbum env tx (t.albumRow choice) placed
    return ([.album id], tx)
  else
    let (ids, tx) ← addItems env tx placed
    return (ids.map .item, tx)

/-- Writes the rows of a task and commits them. -/
def commitRows (env : Environment) (t : Task) (choice : Chosen) (placed : List Track) :
    Attempt ServiceFailure (List EntryId) := do
  let tx ← begin env
  let (entries, tx) ← tryCatch (writeRows env tx t choice placed) fun e => do
    regardless (rollback env)
    throw e
  commit env tx
  return entries

/-- Tells every observer of an import. -/
def notify (env : Environment) (event : ImportEvent) : List String → Act Unit
  | [] => return ()
  | observer :: rest => do
    record (.imported observer event)
    let _ ← enter env .onImport
    notify env event rest

/-- What observers are told of a task. -/
def importEvent (t : Task) (choice : Chosen) (entries : List EntryId) (paths : List FilePath) :
    ImportEvent :=
  { key := t.key, identity := t.identity, entries, replaced := t.replaces, paths
    asIs := match choice with
      | .asIs => true
      | .matched _ => false }

/-- Removes sources. -/
def removeSources (t : Task) (paths : List FilePath) : Attempt ImportFailure Unit := do
  let s ← get
  let (failure, files) := s.files.removeSources paths
  set { s with files }
  match failure with
  | some e => throw (.apply t.key .removeSources none (.io e))
  | none => return ()

/-- Removes the sources of a task whose files are to be moved, and tells the steps taken. -/
def finishMove (env : Environment) (t : Task) (completed : List ApplyStep)
    (paths : List FilePath) : Attempt ApplyFailure (List ApplyStep) := do
  if env.config.fileStrategy = .move then
    (removeSources t paths).adapt fun failure => { failure, completed }
    return completed ++ [.removeSources]
  else
    return completed

/-- Finishes a task whose rows an earlier attempt committed: only the removal of its sources can
be outstanding. -/
def finishCommitted (env : Environment) (t : Task) (choice : Chosen) :
    Attempt ApplyFailure Applied := do
  let completed ← finishMove env t [.transferFiles, .writeTags, .catalogCommit]
    (t.tracks.map (·.path))
  notify env (importEvent t choice [] []) env.observers
  return { entries := [], paths := [], completed }

/-- Takes the copies back before a failure is told. References leave nothing to take back, so
what was completed stays completed. -/
def takeBack (env : Environment) (transfers : List Transfer) (completed : List ApplyStep)
    {α : Type} (x : Attempt ImportFailure α) : Attempt ApplyFailure α := do
  match ← x.run with
  | .ok a => return a
  | .error failure =>
    modify fun s => { s with files := s.files.undo transfers }
    throw ⟨failure, if env.config.fileStrategy = .reference then completed else []⟩

/-- Writes the tags of the files that were brought into the library, unless that is not wanted or
an earlier attempt has done it. -/
def retag (env : Environment) (t : Task) (choice : Chosen) (previous : List ApplyStep)
    (transfers : List Transfer) : Attempt ApplyFailure Unit :=
  if env.config.writeTags && !previous.contains .writeTags then
    takeBack env transfers [.transferFiles]
      (writeAllTags env t (transfers.zip (t.resolvedFields choice)))
  else
    return ()

/-- Tracks as they are in the library. -/
def placedTracks (records : List Track) (transfers : List Transfer) : List Track :=
  records.zipWith (fun r x => r.relocated x.dest) transfers

/-- Applies a task from its first step on. -/
def applyAll (env : Environment) (t : Task) (choice : Chosen) (previous : List ApplyStep) :
    Attempt ApplyFailure Applied := do
  let records := t.resolvedTracks choice
  let transfers ← (transfer env t records).adapt fun failure => { failure, completed := [] }
  retag env t choice previous transfers
  let paths := transfers.map (·.dest)
  let entries ← takeBack env transfers [.transferFiles, .writeTags]
    ((commitRows env t choice (placedTracks records transfers)).adapt (stepFailure t .catalogCommit none))
  let completed ← finishMove env t [.transferFiles, .writeTags, .catalogCommit]
    (movedSources transfers)
  notify env (importEvent t choice entries paths) env.observers
  return { entries, paths, completed }

/-- Applies a task with its committed outcome, or as it is if there is none. -/
def apply (env : Environment) (t : Task) : Attempt ApplyFailure Applied :=
  let previous := env.journal.completedSteps t.key
  let choice := t.chosen.getD .asIs
  if previous.contains .catalogCommit then finishCommitted env t choice
  else applyAll env t choice previous

end Session
end MusicImport
