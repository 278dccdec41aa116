import MusicImport.Failure
import MusicImport.Identity
import MusicImport.Scoring.Match

/-! Import tasks: a group of tracks on its way from discovery to the catalog. -/
namespace MusicImport

/-- The outcome a task is applied with. -/
inductive Chosen
  | matched (choice : Match Float)
  | asIs

/-- Where a child of a split group comes from. -/
structure SplitOrigin where
  parent : GroupKey
  index : Nat
  count : Nat
deriving DecidableEq

/-- A group of tracks with its candidates. A selection can be changed until it is committed. -/
structure Task where
  key : GroupKey
  tracks : List Track
  isAlbum : Bool
  /-- Catalog entries that applying the task removes. -/
  replaces : List EntryId := []
  origin : Option SplitOrigin := none
  state : TaskState := .pending
  candidates : List (Match Float) := []
  selection : Option Chosen := none
  chosen : Option Chosen := none

namespace Task

def best? (t : Task) : Option (Match Float) := t.candidates.head?

/-- The most frequent value that the tracks carry, blanks around it dropped. -/
def consensus (t : Task) (field : Track → Option String) : Option String :=
  consensus? (trimmedValues (t.tracks.filterMap field))

/-- The identity that the task has or would have in the catalog: of the match committed or
selected, else of its own tags. -/
def identity (t : Task) : Identity :=
  let parts : Option (String × String) :=
    match t.chosen.or t.selection with
    | some (.matched m) => some m.candidate.parts
    | _ => none
  if t.isAlbum then
    let (artist, title) := parts.getD
      ((t.consensus (·.effectiveAlbumArtist)).getD "", (t.consensus (·.album)).getD "")
    .album artist title
  else
    let first := t.tracks.head?
    let (artist, title) := parts.getD
      ((first.bind (·.artist)).getD "", (first.map (·.displayTitle)).getD "")
    .item artist title

/-- A task for each track alone, ready to be searched for. -/
def split (t : Task) : List Task :=
  t.tracks.mapIdx fun i track =>
    { key := t.key.child i, tracks := [track], isAlbum := false, state := .grouped
      origin := some ⟨t.key, i, t.tracks.length⟩ }

end Task
end MusicImport
