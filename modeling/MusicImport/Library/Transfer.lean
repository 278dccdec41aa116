import MusicImport.Failure
import MusicImport.Files.Tree

/-! Bringing files into the library. A destination that already holds the content is used as it
is, unless a catalog entry owns it; any other occupied destination leads to a numbered name. -/
namespace MusicImport

/-- How files get into the library. -/
inductive FileStrategy
  | move
  | copy
  | reference
deriving DecidableEq

/-- What it took to have a file at its destination. -/
inductive Placement
  | copied
  | alreadyPresent
  | inPlace
deriving DecidableEq

def Placement.name : Placement → String
  | .copied => "copied"
  | .alreadyPresent => "already_present"
  | .inPlace => "in_place"

structure Transfer where
  source : FilePath
  dest : FilePath
  placement : Placement
deriving DecidableEq

/-- Whether a path is among others, however written. -/
def isClaimed (claimed : List FilePath) (p : FilePath) : Bool := claimed.any p.same

/-- A file name with a number in parentheses before its extension. -/
def numberedName (name : String) (n : Nat) : String :=
  let (stem, ext) := FilePath.cutName name
  let numberedStem := stem ++ " (" ++ toString n ++ ")"
  match ext with
  | some ext => numberedStem ++ "." ++ ext
  | none => numberedStem

/-- The `n`-th alternative for a destination, beside it. -/
def numbered (dest : FilePath) (n : Nat) : Except ImportFailure FilePath :=
  if 1000 ≤ n then
    .error (.invalidPath
      ("Could not resolve filename conflict for " ++ dest.text ++ " after 1000 attempts"))
  else
    match dest.fileName? with
    | none => .error (.invalidPath ("Invalid filename: " ++ dest.text))
    | some name => .ok (dest.withFileName (numberedName name n))

/-- Where the search for a free destination ends. -/
inductive Vacancy
  | absent (path : FilePath)
  /-- The file there has the same content and nobody claims it. -/
  | holds (path : FilePath)

namespace FileTree

/-- Whether two files have the same content. -/
def sameContent (t : FileTree) (p q : FilePath) : Except IoError Bool := do
  let a ← t.read p
  let b ← t.read q
  return a == b

/-- Tries a destination and its numbered alternatives from `n` on. -/
def vacancy (t : FileTree) (source dest : FilePath) (claimed : List FilePath) :
    (fuel n : Nat) → FilePath → Except ImportFailure Vacancy
  | 0, _, target => .ok (.absent target)
  | fuel + 1, n, target =>
    if !t.exists? target then .ok (.absent target)
    else if isClaimed claimed target then do
      vacancy t source dest claimed fuel (n + 1) (← numbered dest (n + 1))
    else
      match t.sameContent source target with
      | .error e => .error (.io e)
      | .ok true => .ok (.holds target)
      | .ok false => do vacancy t source dest claimed fuel (n + 1) (← numbered dest (n + 1))

/-- Copies a file and, if asked for, compares the copy, which is removed if it differs. What a copy
that breaks off has left is not removed. -/
def copyVerified (t : FileTree) (source dest : FilePath) (verify : Bool) :
    Except ImportFailure Unit × FileTree :=
  match (if verify then (t.read source).map some else .ok none), t.copy source dest with
  | .error e, _ => (.error (.io e), t)
  | .ok _, (.error e, t) => (.error (.io e), t)
  | .ok none, (.ok (), t) => (.ok (), t)
  | .ok (some content), (.ok (), t) =>
    match t.read dest with
    | .error e => (.error (.io e), t)
    | .ok copied =>
      if copied == content then (.ok (), t)
      else (.error (.verificationFailed dest), (t.remove dest).toOption.getD t)

/-- Brings a file to a destination or beside it. Files that are referenced, or that are there
already, stay in place. -/
def place (t : FileTree) (source dest : FilePath) (strategy : FileStrategy) (verify : Bool)
    (claimed : List FilePath) : Except ImportFailure Transfer × FileTree :=
  if strategy = .reference || source.same dest then (.ok ⟨source, source, .inPlace⟩, t)
  else
    match t.vacancy source dest claimed 1001 0 dest with
    | .error e => (.error e, t)
    | .ok (.holds target) => (.ok ⟨source, target, .alreadyPresent⟩, t)
    | .ok (.absent target) =>
      match
        (match target.parent? with
          | some parent => t.ensureDirectory parent
          | none => .ok t) with
      | .error e => (.error (.io e), t)
      | .ok t =>
        match t.copyVerified source target verify with
        | (.error e, t) => (.error e, t)
        | (.ok (), t) => (.ok ⟨source, target, .copied⟩, t)

/-- Removes files as far as that is possible. -/
def removeFiles (t : FileTree) (paths : List FilePath) : FileTree :=
  paths.foldl (fun t p => (t.remove p).toOption.getD t) t

/-- Removes the copies that were made. -/
def undo (t : FileTree) (transfers : List Transfer) : FileTree :=
  t.removeFiles ((transfers.filter (·.placement = .copied)).map (·.dest))

/-- Brings files to their destinations one after the other, each claiming its place. The first
that fails is told with the failure, and the copies made so far are removed. -/
def placeAll (t : FileTree) (strategy : FileStrategy) (verify : Bool) :
    (finished : List Transfer) → (claimed : List FilePath) → List (FilePath × FilePath) →
      Except (FilePath × ImportFailure) (List Transfer) × FileTree
  | finished, _, [] => (.ok finished, t)
  | finished, claimed, (source, dest) :: rest =>
    match t.place source dest strategy verify claimed with
    | (.ok transfer, t) =>
      placeAll t strategy verify (finished ++ [transfer]) (transfer.dest :: claimed) rest
    | (.error e, t) => (.error (source, e), t.undo finished)

/-- Removes files and tells the first failure; a file that is not there is no failure. -/
def removeSources (t : FileTree) : List FilePath → Option IoError × FileTree
  | [] => (none, t)
  | p :: rest =>
    match t.remove p with
    | .ok t => removeSources t rest
    | .error .notFound => removeSources t rest
    | .error e => (some e, (removeSources t rest).2)

end FileTree

/-- The sources that are no longer needed once their files are in the library. -/
def movedSources (transfers : List Transfer) : List FilePath :=
  (transfers.filter fun t => t.placement != .inPlace && !t.source.same t.dest).map (·.source)

end MusicImport
