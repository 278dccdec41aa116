import MusicImport.Session.Search
import MusicImport.Session.Apply

/-! Settling a task: its match is taken at once or put to somebody, and entries that are already in
the catalog are dealt with. A task ends up ready to be applied, skipped, aborted or failed, or is
split into one task for each track. -/
namespace MusicImport

/-- A task that is settled, with what made it fail. -/
structure Resolved where
  task : Task
  failure : Option ImportFailure := none

/-- A failure in the middle of settling, with the task as it then stood. -/
structure Setback where
  task : Task
  failure : ImportFailure

/-- The result of choosing an outcome. -/
inductive Choice
  | task (t : Task)
  | split (children : List Task)

/-- What an answer leads to: the end of the questions, or the same question for a task. -/
inductive Verdict
  | settled (c : Choice)
  | again (t : Task)

/-- The settled choice of a verdict that cannot ask again. -/
def Verdict.choice : Verdict → Choice
  | .settled c => c
  | .again t => .task t

/-- The result of looking for entries that a task duplicates. -/
inductive DuplicateOutcome
  | proceed (t : Task)
  | finished (t : Task)
  /-- The task has absorbed other entries and was searched for again. -/
  | merged (t : Task)

/-- A settled task, or the tasks it was split into. -/
inductive Settlement
  | resolved (r : Resolved)
  | split (children : List Task)

namespace Task

/-- The order of tracks on their discs. Tracks without a disc belong to the first, and tracks
without a number come last. -/
def positionKey (t : Track) : Nat × Nat := (t.discNumber.getD 1, t.trackNumber.getD (word32 - 1))

/-- Whether a track stands before another or at the same position. -/
def notAfter (a b : Track) : Bool :=
  let (p, q) := (positionKey a, positionKey b)
  p.1 < q.1 || (p.1 = q.1 && p.2 ≤ q.2)

/-- The tracks in order of their positions. -/
def inOrder (t : Task) : Task := { t with tracks := t.tracks.mergeSort notAfter }

/-- The task with the tracks of an entry that it replaces, apart from the known files. -/
def absorb (t : Task) (known : List FilePath) (id : EntryId) (tracks : List Track) : Task :=
  { t with
    tracks := t.tracks ++ tracks.filter fun x => !isClaimed known x.path
    replaces := t.replaces ++ [id] }

/-- Aborted, if that is still possible. -/
def aborted (t : Task) : Task := (t.transition .aborted).toOption.getD t

end Task

namespace Session

/-- Moves a task on. -/
def advance (t : Task) (next : TaskState) : Attempt Setback Task :=
  match t.transition next with
  | .ok t => return t
  | .error e => throw ⟨t, .service e⟩

/-- Asks a service on behalf of a task. -/
def onBehalf {α : Type} (t : Task) (x : Attempt ServiceFailure α) : Attempt Setback α :=
  x.adapt fun e => ⟨t, .service e⟩

/-- Searches for a task and replaces its candidates. -/
def search (env : Environment) (t : Task) (query : Option ManualQuery) : Attempt Setback Task := do
  let t ← advance t .searching
  let found ← match query with
    | some q => collectManual env t q
    | none => collect env t
  return { t with
    candidates := Match.scoreAndRank env.config.matching.weights t.isAlbum t.tracks found }

/-- Puts the choice of a match to somebody. -/
def ask (env : Environment) (t : Task) : Act Unit := do
  record (.asked t.key t.state (t.candidates.map fun m => (m.candidate.id, m.similarity)))
  let _ ← enter env .chooseMatch
  return ()

/-- Selects an outcome and goes on to the duplicates. -/
def pick (t : Task) (choice : Chosen) : Attempt Setback Verdict :=
  return .settled (.task (← advance (t.select choice) .duplicateCheck))

/-- Ends the questions about a task without an outcome. -/
def leave (t : Task) (state : TaskState) : Attempt Setback Verdict :=
  return .settled (.task (← advance t state))

/-- Follows an answer. One that does not fit the task is asked for again. -/
def follow (env : Environment) (t : Task) : MatchDecision → Attempt Setback Verdict
  | .applyBest => pick t ((t.best?.map .matched).getD .asIs)
  | .applyCandidate rank =>
    match t.candidates[rank]? with
    | some m => pick t (.matched m)
    | none => return .again t
  | .useAsIs => pick t .asIs
  | .asSingletons => return if t.isAlbum then .settled (.split t.split) else .again t
  | .manualSearch query => do
    let t ← search env t.clearSelection (some query)
    return .again (← advance t .awaitingDecision)
  | .skip => leave t .skipped
  | .abort => do
    let v ← leave t .aborted
    raiseAbort
    return v

/-- Asks until an answer settles the outcome. When the prepared answers are used up the standing
one settles it. -/
def deliberate (env : Environment) : List MatchDecision → Task → Attempt Setback Choice
  | [], t => do
    if ← isAborted then return .task (← advance t .aborted)
    ask env t
    match env.standing.fallback with
    | .skip => return (← leave t .skipped).choice
    | .asIs => return (← pick t .asIs).choice
  | decision :: rest, t => do
    if ← isAborted then return .task (← advance t .aborted)
    ask env t
    modify fun s => { s with decisions := rest }
    match ← follow env t decision with
    | .settled c => return c
    | .again t => deliberate env rest t

/-- Chooses an outcome: a strong best match at once, anything else by asking. -/
def choose (env : Environment) (t : Task) : Attempt Setback Choice := do
  match recommend env.config.matching t.candidates, t.best? with
  | .strong, some best => return .task (← advance (t.select (.matched best)) .duplicateCheck)
  | _, _ =>
    let t ← advance t .awaitingDecision
    deliberate env (← get).decisions t

/-- Takes the next answer to a question about duplicates. -/
def askDuplicate (env : Environment) (t : Task) (existing : List CatalogEntry) :
    Act DuplicateDecision := do
  record (.duplicate t.key existing)
  let _ ← enter env .resolveDuplicate
  match (← get).duplicates with
  | [] => return env.standing.duplicates
  | d :: rest =>
    modify fun s => { s with duplicates := rest }
    return d

/-- Removes entries in one transaction, and then their files, except for those of the task. -/
def removeOld (env : Environment) (t : Task) (existing : List CatalogEntry) :
    Attempt ServiceFailure Unit := do
  let tx ← begin env
  let (paths, tx) ← tryCatch (removeAll env tx (existing.map (·.id))) fun e => do
    rollback env
    throw e
  commit env tx
  let incoming := t.tracks.map (·.path)
  modify fun s =>
    { s with files := s.files.removeFiles (paths.filter fun p => !isClaimed incoming p) }

/-- Takes the tracks of entries into a task, one entry after the other. -/
def absorbAll (env : Environment) (known : List FilePath) :
    Task → List CatalogEntry → Attempt Setback Task
  | t, [] => return t
  | t, e :: rest => do
    let tracks ← onBehalf t (entryTracks env e.id)
    absorbAll env known (t.absorb known e.id tracks) rest

/-- Merges entries into a task, which is then searched for again. -/
def merge (env : Environment) (t : Task) (existing : List CatalogEntry) :
    Attempt Setback Task := do
  let t ← absorbAll env (t.tracks.map (·.path)) t existing
  search env t.inOrder.clearSelection none

/-- Looks for entries with the identity of a task and asks what to do about them. A task whose rows
an earlier attempt committed would only find its own. -/
def checkDuplicates (env : Environment) (t : Task) : Attempt Setback DuplicateOutcome := do
  if (env.journal.completedSteps t.key).contains .catalogCommit then return .proceed t
  let found ← onBehalf t (findDuplicates env t.identity)
  let existing := found.filter fun e => !t.replaces.contains e.id
  if existing.isEmpty then return .proceed t
  if ← isAborted then return .finished (← advance t .aborted)
  match ← askDuplicate env t existing with
  | .skipNew => return .finished (← advance t .skipped)
  | .keepBoth => return .proceed t
  | .removeOld =>
    onBehalf t (removeOld env t existing)
    return .proceed t
  | .merge =>
    if t.isAlbum then return .merged (← merge env t existing)
    else return .proceed { t with replaces := t.replaces ++ existing.map (·.id) }

/-- Marks a task as failed and tells about it. -/
def fail (s : Setback) : Act Resolved := do
  record (.failed s.task.key s.failure.message)
  return ⟨(s.task.transition .failed).toOption.getD s.task, some s.failure⟩

/-- Makes the outcome of a task final, unless the import is aborted. -/
def commitTask (t : Task) : Attempt Setback Task := do
  if ← isAborted then return t.aborted
  match t.commitChoice with
  | .ok t => return t
  | .error refusal => throw ⟨refusal.task, .service refusal.failure⟩

/-- Settles a task that was searched for. The fuel bounds how often it absorbs other entries. -/
def round (env : Environment) : Nat → Task → Attempt Setback Settlement
  | 0, t => return .resolved ⟨t, none⟩
  | fuel + 1, t => do
    if ← isAborted then return .resolved ⟨t.aborted, none⟩
    match ← choose env t with
    | .split children => return .split children
    | .task t =>
      if t.state.isTerminal then return .resolved ⟨t, none⟩
      match ← checkDuplicates env t with
      | .finished t => return .resolved ⟨t, none⟩
      | .proceed t => return .resolved ⟨← commitTask t, none⟩
      | .merged t => round env fuel t

/-- Settles a task that was searched for. Each time it absorbs other entries at least one of the
catalog is new to it. -/
def settle (env : Environment) (t : Task) : Act Settlement := do
  let c := (← get).catalog
  match ← (round env (c.albums.length + c.items.length + 1) t).run with
  | .ok r => return r
  | .error s => return .resolved (← fail s)

/-- Searches for a task, if that is still to be done, and settles it. -/
def settleFresh (env : Environment) (t : Task) : Act Settlement := do
  if t.state = .grouped && !(← isAborted) then
    match ← (search env t none).run with
    | .ok t => settle env t
    | .error s => return .resolved (← fail s)
  else
    settle env t

/-- Settles tasks of single tracks, which are not split. -/
def resolveSingles (env : Environment) : List Task → Act (List Resolved)
  | [] => return []
  | t :: rest => do
    match ← settleFresh env t with
    | .resolved r => return r :: (← resolveSingles env rest)
    | .split _ => resolveSingles env rest

/-- Settles a task, or instead of it the tasks that it is split into, in order of its tracks. -/
def resolve (env : Environment) (t : Task) : Act (List Resolved) := do
  match ← settleFresh env t with
  | .resolved r => return [r]
  | .split children => resolveSingles env children

end Session
end MusicImport
