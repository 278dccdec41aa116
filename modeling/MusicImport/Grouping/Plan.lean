import MusicImport.Failure
import MusicImport.Files.Tree
import MusicImport.Grouping.DiscMarker
import MusicImport.Task.State

/-! Groups of audio files below a root: a directory is an album, discs that share a prefix are one
album together, and in singleton mode every file stands alone. -/
namespace MusicImport

/-- Endings of the names of audio files. -/
def audioExtensions : List String :=
  ["mp3", "flac", "ogg", "opus", "wav", "m4a", "aac", "aif", "aiff", "wma", "ape"]

def isAudioFile (p : FilePath) : Bool :=
  p.extension?.any fun e => audioExtensions.contains (Text.lowercase e)

/-- A group before its tags are read. -/
structure GroupPlan where
  key : GroupKey
  files : List FilePath
  isAlbum : Bool
deriving DecidableEq

/-- A directory with the audio files directly in it, in the order they were found. -/
structure AudioDirectory where
  path : FilePath
  files : List FilePath
deriving DecidableEq

/-- Adds a file to its directory, new directories at the end. -/
def addToDirectory (dir file : FilePath) : List AudioDirectory → List AudioDirectory
  | [] => [⟨dir, [file]⟩]
  | d :: ds =>
    if d.path.same dir then { d with files := d.files ++ [file] } :: ds
    else d :: addToDirectory dir file ds

/-- Files by directory, directories in the order in which they were first seen. -/
def byDirectory (root : FilePath) (files : List FilePath) : List AudioDirectory :=
  files.foldl (fun ds f => addToDirectory ((f.parent?).getD root) f ds) []

/-- A disc of a set, with the number in its name. -/
structure DiscMember where
  number : Nat
  path : FilePath
deriving DecidableEq

/-- Disc directories side by side whose names share a prefix. -/
structure DiscSet where
  parent : FilePath
  shared : String
  members : List DiscMember

namespace DiscSet

/-- The set that a directory belongs to as a disc, and its place in it. -/
def ofDirectory? (dir : FilePath) : Option DiscSet := do
  let name ← dir.fileName?
  let (shared, number) ← discOfName? name
  let parent ← dir.parent?
  return ⟨parent, shared, [⟨number, dir⟩]⟩

/-- Adds the member of a set to the set of the same parent and prefix. -/
def addTo (s : DiscSet) : List DiscSet → List DiscSet
  | [] => [s]
  | t :: ts =>
    if t.parent.same s.parent && t.shared = s.shared then
      { t with members := t.members ++ s.members } :: ts
    else t :: addTo s ts

/-- By disc number, then by path. -/
def inOrder (a b : DiscMember) : Bool :=
  ((compare a.number b.number).then (a.path.compare b.path)) != .gt

/-- The sets of at least two discs among directories, discs in ascending order. -/
def ofDirectories (dirs : List AudioDirectory) : List DiscSet :=
  (((dirs.filterMap (ofDirectory? ·.path)).foldl (fun sets s => s.addTo sets) []).filter
    fun s => 1 < s.members.length).map
      fun s => { s with members := s.members.mergeSort inOrder }

def has (s : DiscSet) (dir : FilePath) : Bool := s.members.any (·.path.same dir)

/-- The path that names the set: the parent, or below it the prefix of the first disc as
written. -/
def keyPath (s : DiscSet) : FilePath :=
  let written := (s.members.head?.bind (·.path.fileName?)).bind fun name =>
    (DiscMarker.ofName? name).map (·.writtenPrefix)
  match written with
  | some p => if p = "" then s.parent else s.parent.join ⟨p⟩
  | none => s.parent

end DiscSet

/-- A set of discs together with the directory of loose files that joins it. -/
structure ClaimedSet where
  discs : DiscSet
  loose : Option FilePath

/-- Lets each set claim the directory that has its name, unless that is a disc itself or an
earlier set claims it. -/
def claimLoose (dirs : List AudioDirectory) (sets : List DiscSet) : List ClaimedSet :=
  sets.foldl (fun claimed s =>
    let key := s.keyPath
    let free := dirs.any (·.path.same key) && !sets.any (·.has key) &&
      !claimed.any fun c => c.loose.any (·.same key)
    claimed ++ [⟨s, if free then some key else none⟩]) []

/-- The set that a directory belongs to, by its position. -/
def setOf? (claimed : List ClaimedSet) (dir : FilePath) : Option Nat :=
  claimed.findIdx? fun c => c.discs.has dir || c.loose.any (·.same dir)

def filesOf (dirs : List AudioDirectory) (dir : FilePath) : List FilePath :=
  ((dirs.find? (·.path.same dir)).map (·.files)).getD []

/-- The album of a set: loose files, then the discs in order. -/
def ClaimedSet.plan (c : ClaimedSet) (dirs : List AudioDirectory) : GroupPlan :=
  { key := c.discs.keyPath.text
    files := (c.loose.map (filesOf dirs)).getD [] ++
      c.discs.members.flatMap (filesOf dirs ·.path)
    isAlbum := true }

/-- One album per directory or set, where its first directory stands; `emitted` are the sets
that were already seen. -/
def emitAlbums (dirs : List AudioDirectory) (claimed : List ClaimedSet) :
    (emitted : List Nat) → List AudioDirectory → List GroupPlan
  | _, [] => []
  | emitted, d :: rest =>
    match setOf? claimed d.path with
    | none => ⟨d.path.text, d.files, true⟩ :: emitAlbums dirs claimed emitted rest
    | some i =>
      if emitted.contains i then emitAlbums dirs claimed emitted rest
      else
        match claimed[i]? with
        | some c => c.plan dirs :: emitAlbums dirs claimed (i :: emitted) rest
        | none => emitAlbums dirs claimed (i :: emitted) rest

/-- Albums of directories, where sets of discs claim loose files in the given order. -/
def albumPlansFrom (dirs : List AudioDirectory) (sets : List DiscSet) : List GroupPlan :=
  emitAlbums dirs (claimLoose dirs sets) [] dirs

def albumPlans (dirs : List AudioDirectory) : List GroupPlan :=
  albumPlansFrom dirs (DiscSet.ofDirectories dirs)

def singletonPlans (dirs : List AudioDirectory) : List GroupPlan :=
  dirs.flatMap fun d => d.files.map fun f => ⟨f.text, [f], false⟩

namespace FileTree

/-- The files below a directory in the order of a walk: by name, into each directory as it
comes. A link counts only where links are followed, and a directory that contains the link
that leads to it is not entered again. The fuel bounds the depth. -/
def filesBelow (t : FileTree) (follow : Bool) : Nat → List Place → Place → FilePath → List FilePath
  | 0, _, _, _ => []
  | fuel + 1, above, place, path =>
    (t.children place).flatMap fun (name, node) =>
      let child := path.join ⟨name⟩
      match node with
      | .file _ => [child]
      | .directory => filesBelow t follow fuel (place :: above) (place ++ [name]) child
      | .link _ =>
        if !follow then []
        else
          match t.walk true walkFuel place [.down name] with
          | .error _ => []
          | .ok target =>
            match t.nodeAt? target with
            | some (.file _) => [child]
            | some .directory =>
              if (place :: above).contains target then []
              else filesBelow t follow fuel (place :: above) target child
            | _ => []

/-- The audio files below a root. -/
def audioFiles (t : FileTree) (root : FilePath) (follow : Bool) : List FilePath :=
  match t.directoryAt? root with
  | some place => (t.filesBelow follow (t.nodes.length + 1) [] place root).filter isAudioFile
  | none => []

/-- The groups below a root, in the order of the walk. A root that is a file is a singleton. -/
def discover (t : FileTree) (root : FilePath) (singletons follow : Bool) :
    Except ImportFailure (List GroupPlan) :=
  if !t.exists? root then .error (.fileNotFound root.text)
  else if t.isFile root then
    if isAudioFile root then .ok [⟨root.text, [root], false⟩]
    else .error (.invalidPath (root.text ++ " is not a supported audio file"))
  else
    let dirs := byDirectory root (t.audioFiles root follow)
    .ok (if singletons then singletonPlans dirs else albumPlans dirs)

end FileTree
end MusicImport
