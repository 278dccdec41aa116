import MusicImport.FilePath
import MusicImport.Files.IoError

/-! Files, directories and symbolic links. A place is the list of names that leads to it from the
root; a path is walked from the working directory, and links on the way are followed. -/
namespace MusicImport

/-- A list of names from the root. -/
abbrev Place := List String

/-- What is at a place. -/
inductive Node
  | file (content : ByteArray)
  | directory
  | link (target : FilePath)

/-- Everything there is, each place at most once, and the directory that relative paths start
from. The root is a directory without being listed. -/
structure FileTree where
  nodes : List (Place × Node) := []
  workingDirectory : Place := []
  /-- Directories in which no entry can be made or removed. -/
  readOnly : List Place := []
  /-- Places where the device fails once so many bytes of a copy are there, or all of them. -/
  defects : List (Place × Nat) := []

namespace FileTree

def nodeAt? (t : FileTree) (p : Place) : Option Node :=
  if p = [] then some .directory else (t.nodes.find? (·.1 = p)).map (·.2)

/-- Takes away what is at a place. -/
def erase (t : FileTree) (p : Place) : FileTree :=
  { t with nodes := t.nodes.filter (·.1 ≠ p) }

/-- Puts a node at a place, instead of what was there. -/
def put (t : FileTree) (p : Place) (n : Node) : FileTree :=
  { t with nodes := (p, n) :: (t.erase p).nodes }

@[simp] theorem nodeAt?_put (t : FileTree) (p : Place) (n : Node) (h : p ≠ []) :
    (t.put p n).nodeAt? p = some n := by simp [nodeAt?, put, h]

theorem nodeAt?_erase_of_ne (t : FileTree) {p q : Place} (h : q ≠ p) :
    (t.erase p).nodeAt? q = t.nodeAt? q := by
  unfold nodeAt? erase
  split
  · rfl
  · congr 1
    rw [List.find?_filter]
    congr 1
    funext x
    by_cases hx : x.1 = q <;> simp [hx, h]

theorem nodeAt?_put_of_ne (t : FileTree) {p q : Place} (n : Node) (h : q ≠ p) :
    (t.put p n).nodeAt? q = t.nodeAt? q := by
  rw [← nodeAt?_erase_of_ne t h]
  simp [nodeAt?, put, Ne.symm h]

@[simp] theorem nodeAt?_erase (t : FileTree) {p : Place} (h : p ≠ []) :
    (t.erase p).nodeAt? p = none := by simp [nodeAt?, erase, h]

/-- One step of a walk. -/
inductive Step
  | down (name : String)
  | up
  | stay

/-- The steps that a path describes; a separator at its end stays in place. -/
def steps (p : FilePath) : List Step :=
  let pieces := p.pieces
  pieces.zipIdx.filterMap fun (piece, i) =>
    if piece = "" then if i ≠ 0 && i + 1 = pieces.length then some .stay else none
    else if piece = "." then some .stay
    else if piece = ".." then some .up
    else some (.down piece)

/-- Where a path starts from, relative ones from the given place. -/
def origin (p : FilePath) (from' : Place) : Place := if p.isAbsolute then [] else from'

/-- Walks from a place. Every step but the last has to lead to a directory; the last may lead
nowhere. The fuel bounds the links that are followed. -/
def walk (t : FileTree) (followLast : Bool) : Nat → Place → List Step → Except IoError Place
  | _, at', [] => .ok at'
  | 0, _, _ :: _ => .error .tooManyLinks
  | fuel + 1, at', .stay :: rest => walk t followLast fuel at' rest
  | fuel + 1, at', .up :: rest => walk t followLast fuel at'.dropLast rest
  | fuel + 1, at', .down name :: rest =>
    let next := at' ++ [name]
    match t.nodeAt? next with
    | some .directory => walk t followLast fuel next rest
    | some (.file _) => if rest.isEmpty then .ok next else .error .notDirectory
    | some (.link target) =>
      if rest.isEmpty && !followLast then .ok next
      else walk t followLast fuel (origin target at') (steps target ++ rest)
    | none => if rest.isEmpty then .ok next else .error .notFound

@[simp] theorem walk_nil (t : FileTree) (followLast : Bool) (fuel : Nat) (a : Place) :
    t.walk followLast fuel a [] = .ok a := by cases fuel <;> rfl

/-- More steps than any walk takes that does not go in a circle. -/
def walkFuel : Nat := 4096

/-- The place of a path, which need not exist. -/
def locate (t : FileTree) (p : FilePath) (followLast : Bool := true) : Except IoError Place :=
  if p.text = "" then .error .notFound
  else t.walk followLast walkFuel (origin p t.workingDirectory) (steps p)

/-- What a path leads to. -/
def find? (t : FileTree) (p : FilePath) : Option Node :=
  match t.locate p with
  | .ok place => t.nodeAt? place
  | .error _ => none

def exists? (t : FileTree) (p : FilePath) : Bool := (t.find? p).isSome

def isFile (t : FileTree) (p : FilePath) : Bool :=
  match t.find? p with
  | some (.file _) => true
  | _ => false

def isDirectory (t : FileTree) (p : FilePath) : Bool :=
  match t.find? p with
  | some .directory => true
  | _ => false

/-- The content of a file. -/
def read (t : FileTree) (p : FilePath) : Except IoError ByteArray := do
  match t.nodeAt? (← t.locate p) with
  | some (.file content) => return content
  | some .directory => throw .isDirectory
  | _ => throw .notFound

/-- The content of a file that holds text. -/
def readText (t : FileTree) (p : FilePath) : Except IoError String := do
  match String.fromUTF8? (← t.read p) with
  | some s => return s
  | none => throw .notText

/-- Whether the directory of a place keeps its entries as they are. -/
def isKept (t : FileTree) (p : Place) : Bool := t.readOnly.contains p.dropLast

/-- Replaces the content of a file, or makes a new one. A link is followed, so that none is left
at the place of a path. -/
def write (t : FileTree) (p : FilePath) (content : ByteArray) : Except IoError FileTree := do
  let place ← t.locate p
  match t.nodeAt? place with
  | some .directory => throw .isDirectory
  | some (.link _) => throw .tooManyLinks
  | some (.file _) => return t.put place (.file content)
  | none => if t.isKept place then throw .denied else return t.put place (.file content)

/-- Makes a directory where nothing is. -/
def createDirectory (t : FileTree) (p : FilePath) : Except IoError FileTree := do
  let place ← t.locate p false
  match t.nodeAt? place with
  | some _ => throw .exists
  | none => if t.isKept place then throw .denied else return t.put place .directory

/-- Makes a directory and the ones it lies in, for as many levels as the fuel allows. -/
def createDirectories (t : FileTree) : Nat → FilePath → Except IoError FileTree
  | 0, _ => .error .notFound
  | fuel + 1, p =>
    if p.text = "" then .ok t
    else
      match t.createDirectory p with
      | .ok t => .ok t
      | .error .notFound =>
        match p.parent? with
        | none => .error (.other "failed to create whole tree")
        | some parent => do
          let t ← createDirectories t fuel parent
          match t.createDirectory p with
          | .ok t => .ok t
          | .error e => if t.isDirectory p then .ok t else .error e
      | .error e => if t.isDirectory p then .ok t else .error e

/-- Makes sure that a directory is there. -/
def ensureDirectory (t : FileTree) (p : FilePath) : Except IoError FileTree :=
  t.createDirectories (p.components.length + 1) p

/-- Takes away a file or a link, not what the link leads to. -/
def remove (t : FileTree) (p : FilePath) : Except IoError FileTree := do
  let place ← t.locate p false
  match t.nodeAt? place with
  | none => throw .notFound
  | some node =>
    if t.isKept place then throw .denied
    else
      match node with
      | .directory => throw .isDirectory
      | _ => return t.erase place

/-- How many bytes of a copy get to a place where the device fails. -/
def defectAt? (t : FileTree) (p : Place) : Option Nat := t.defects.lookup p

/-- A copy that is under way: its place, and what is to get there. -/
structure OpenCopy where
  place : Place
  content : ByteArray
  files : FileTree

/-- Begins to copy a file over another. The target is emptied before the source is read. -/
def openCopy (t : FileTree) (source target : FilePath) : Except IoError OpenCopy := do
  let sourcePlace ← t.locate source
  match t.nodeAt? sourcePlace with
  | none => throw .notFound
  | some (.file _) =>
    let files ← t.write target ByteArray.empty
    return ⟨← files.locate target, ← files.read source, files⟩
  | some _ => throw .notRegular

/-- Copies a file over another, so that a file copied onto itself ends up empty. A copy that breaks
off leaves what has got to its target. -/
def copy (t : FileTree) (source target : FilePath) : Except IoError Unit × FileTree :=
  match t.openCopy source target with
  | .error e => (.error e, t)
  | .ok ⟨place, content, files⟩ =>
    match t.defectAt? place with
    | none => (.ok (), files.put place (.file content))
    | some n => (.error .device, files.put place (.file (content.extract 0 n)))

/-- The names in a directory with what they stand for, in order. -/
def children (t : FileTree) (p : Place) : List (String × Node) :=
  (t.nodes.filterMap fun (q, n) =>
    match q.getLast? with
    | some name => if q.dropLast = p then some (name, n) else none
    | none => none).mergeSort fun a b => a.1 ≤ b.1

/-- The directory that a path leads to. -/
def directoryAt? (t : FileTree) (p : FilePath) : Option Place :=
  match t.locate p with
  | .ok place =>
    match t.nodeAt? place with
    | some .directory => some place
    | _ => none
  | .error _ => none

/-- A file with the directories it lies in. -/
def addFile (t : FileTree) (p : FilePath) (content : ByteArray) : Except IoError FileTree := do
  let t ← t.ensureDirectory ((p.parent?).getD ⟨""⟩)
  t.write p content

/-- A symbolic link with the directories it lies in. -/
def addLink (t : FileTree) (p target : FilePath) : Except IoError FileTree := do
  let t ← t.ensureDirectory ((p.parent?).getD ⟨""⟩)
  let place ← t.locate p false
  match t.nodeAt? place with
  | some _ => throw .exists
  | none => if t.isKept place then throw .denied else return t.put place (.link target)

/-- A place as a relative path. -/
def Place.path (p : Place) : FilePath := ⟨Text.joinWith "/" p⟩

/-- All files with their contents, by path. A link counts as the file it leads to, and one that
leads nowhere as an empty file. -/
def fileList (t : FileTree) : List (FilePath × ByteArray) :=
  (t.nodes.filterMap fun (p, n) =>
    match n with
    | .file content => some (Place.path p, content)
    | .directory => none
    | .link _ =>
      match t.find? ⟨"/" ++ (Place.path p).text⟩ with
      | some (.file content) => some (Place.path p, content)
      | some .directory => none
      | _ => some (Place.path p, ByteArray.empty)).mergeSort fun a b => a.1.text ≤ b.1.text

/-- All directories by path. -/
def directoryList (t : FileTree) : List FilePath :=
  (t.nodes.filterMap fun (p, n) =>
    match n with
    | .directory => some (Place.path p)
    | _ => none).mergeSort fun a b => a.text ≤ b.text

end FileTree
end MusicImport
