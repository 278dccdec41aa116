import MusicImport.Text.Split

/-! Paths as texts, and the components they are compared by. Repeated separators and inner single
dots do not count; a dot at the start and double dots do. -/
namespace MusicImport

/-- A path as written, which is a text: names of files that are no UTF-8 have no path here. -/
structure FilePath where
  text : String
deriving DecidableEq, Inhabited

namespace FilePath

/-- One step of a path. -/
inductive Component
  | root
  | here
  | up
  | name (text : String)
deriving DecidableEq

/-- The component that a piece between separators stands for, `first` at the start of the path. -/
def Component.ofPiece? (first : Bool) (piece : String) : Option Component :=
  if piece = "" then none
  else if piece = "." then if first then some .here else none
  else if piece = ".." then some .up
  else some (.name piece)

def pieces (p : FilePath) : List String := Text.split '/' p.text

def isAbsolute (p : FilePath) : Bool := p.text.toList.head? == some '/'

/-- The steps of a path in order. -/
def components (p : FilePath) : List Component :=
  match p.pieces with
  | [] => []
  | first :: rest =>
    (if p.isAbsolute then [.root] else (Component.ofPiece? true first).toList) ++
      rest.filterMap (Component.ofPiece? false)

/-- Paths with the same components. -/
def same (p q : FilePath) : Bool := p.components == q.components

/-- Rank of a component among components of the same place. -/
def Component.rank : Component → Nat
  | .root => 0
  | .here => 1
  | .up => 2
  | .name _ => 3

def Component.compare (a b : Component) : Ordering :=
  match a, b with
  | .name s, .name t => Ord.compare s t
  | a, b => Ord.compare a.rank b.rank

/-- Lexicographic order of components. -/
def compareComponents : List Component → List Component → Ordering
  | [], [] => .eq
  | [], _ :: _ => .lt
  | _ :: _, [] => .gt
  | a :: as, b :: bs => (a.compare b).then (compareComponents as bs)

def compare (p q : FilePath) : Ordering := compareComponents p.components q.components

/-- The last component, if it is a name. -/
def fileName? (p : FilePath) : Option String :=
  match p.components.getLast? with
  | some (.name n) => some n
  | _ => none

/-- A file name cut at its last dot. A dot at the start cuts nothing. -/
def cutName (name : String) : String × Option String :=
  match Text.cutLast? '.' name.toList with
  | some (stem, ext) =>
    if stem.isEmpty then (name, none) else (String.ofList stem, some (String.ofList ext))
  | none => (name, none)

/-- The file name without its extension. -/
def stem? (p : FilePath) : Option String := p.fileName?.map fun n => (cutName n).1

/-- What follows the last dot of the file name. -/
def extension? (p : FilePath) : Option String := p.fileName?.bind fun n => (cutName n).2

/-- Whether a piece of the text counts as a component. -/
def counts (absolute first : Bool) (piece : String) : Bool :=
  if first then absolute || (Component.ofPiece? true piece).isSome
  else (Component.ofPiece? false piece).isSome

/-- The pieces up to the one that completes the given number of components. -/
def takeComponents (absolute : Bool) : Nat → Bool → List String → List String
  | 0, _, _ => []
  | _ + 1, _, [] => []
  | n + 1, first, piece :: rest =>
    piece :: takeComponents absolute (if counts absolute first piece then n else n + 1) false rest

/-- The path without its last component; the root and the empty path have none. -/
def parent? (p : FilePath) : Option FilePath :=
  match p.components.reverse with
  | [] => none
  | .root :: _ => none
  | _ :: before =>
    match before with
    | [.root] => some ⟨"/"⟩
    | _ => some ⟨Text.joinWith "/" (takeComponents p.isAbsolute before.length true p.pieces)⟩

/-- A path below another; an absolute path replaces it. -/
def join (p q : FilePath) : FilePath :=
  if q.isAbsolute then q
  else if p.text = "" then q
  else if p.text.toList.getLast? == some '/' then ⟨p.text ++ q.text⟩
  else ⟨p.text ++ "/" ++ q.text⟩

/-- The path beside it with another file name. -/
def withFileName (p : FilePath) (name : String) : FilePath :=
  if p.fileName?.isSome then ((p.parent?).getD ⟨""⟩).join ⟨name⟩ else p.join ⟨name⟩

/-- A relative path of the given names. -/
def ofNames (names : List String) : FilePath := names.foldl (fun p n => p.join ⟨n⟩) ⟨""⟩

end FilePath
end MusicImport
