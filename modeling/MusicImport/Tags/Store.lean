import MusicImport.Failure
import MusicImport.Files.Tree
import MusicImport.Tags.Flac
import MusicImport.Text.Lowercase

/-! Tags of files. A codec reads and writes them, and sees one file at a time: the file itself, and what was
written under its path before. Two codecs are given: one keeps the tags in FLAC files, the other in records
beside the files. -/
namespace MusicImport

/-- What is seen of a file. -/
structure FileView where
  isThere : Bool
  content : Except IoError ByteArray

namespace FileTree

/-- The file that a path leads to, as it is seen. -/
def view (t : FileTree) (p : FilePath) : FileView := ⟨t.exists? p, t.read p⟩

/-- Gives the file that a path leads to another content. -/
def rewrite (t : FileTree) (p : FilePath) (g : ByteArray → ByteArray) : FileTree :=
  match t.read p with
  | .ok content => (t.write p (g content)).toOption.getD t
  | .error _ => t

end FileTree

/-- Values that were put into the tags of a file. -/
structure TagWrite where
  path : FilePath
  fields : TagFields

/-- A way to read and write the tags of files. What it tells of a file, and whether it takes values for it,
depends on its path, on what was written under this path before, and on the file; the last write comes
first. A write changes the content of its file and nothing else. -/
structure TagCodec where
  read : FilePath → List TagWrite → FileView → Except ServiceFailure Track
  /-- Fails for values that cannot be written. -/
  check : FilePath → List TagWrite → FileView → TagFields → Except ServiceFailure Unit
  /-- The content of a file that values were written into. -/
  retagged : FilePath → TagFields → ByteArray → ByteArray
  /-- The content that a failed write leaves. -/
  spoiled : FilePath → TagFields → ByteArray → ByteArray := fun _ _ content => content

/-- A codec with what was written by it, the last write first. -/
structure TagStore where
  codec : TagCodec
  written : List TagWrite := []

namespace TagStore

/-- What was written under a path. -/
def writtenTo (s : TagStore) (p : FilePath) : List TagWrite := s.written.filter (·.path.same p)

/-- The content of a file that values were written into. -/
def retagged (s : TagStore) : FilePath → TagFields → ByteArray → ByteArray := s.codec.retagged

/-- The content that a failed write leaves. -/
def spoiled (s : TagStore) : FilePath → TagFields → ByteArray → ByteArray := s.codec.spoiled

/-- Reads the tags of a file. -/
def read (s : TagStore) (files : FileTree) (p : FilePath) : Except ServiceFailure Track :=
  s.codec.read p (s.writtenTo p) (files.view p)

/-- Puts values into the tags of a file. -/
def write (s : TagStore) (files : FileTree) (p : FilePath) (f : TagFields) :
    Except ServiceFailure (TagStore × FileTree) :=
  match s.codec.check p (s.writtenTo p) (files.view p) f with
  | .error e => .error e
  | .ok () =>
    .ok ({ s with written := ⟨p, f⟩ :: s.written }, files.rewrite p (s.retagged p f))

/-- The files that a failed write leaves. -/
def spoil (s : TagStore) (files : FileTree) (p : FilePath) (f : TagFields) : FileTree :=
  files.rewrite p (s.spoiled p f)

end TagStore

/-- The FLAC file that is seen at a path; other kinds of files are not read. -/
def FileView.flac (v : FileView) (p : FilePath) : Except ServiceFailure FlacFile :=
  if !v.isThere then .error (.metadata ("File not found: " ++ p.text))
  else if (p.extension?.map Text.asciiLowercase) != some "flac" then
    .error (.metadata "No format could be determined from the provided file")
  else
    match v.content with
    | .error e => .error (.metadata e.message)
    | .ok content =>
      match FlacFile.decode? content with
      | some f => .ok f
      | none => .error (.metadata "File missing \"fLaC\" stream marker")

/-- The FLAC file at a path. -/
def FileTree.flac (t : FileTree) (p : FilePath) : Except ServiceFailure FlacFile := (t.view p).flac p

/-- A FLAC file that values were put into. -/
def FlacFile.withFields (flac : FlacFile) (f : TagFields) : FlacFile :=
  flac.withComments (applyFields f flac.comments)

/-- Tags in FLAC files. -/
def flacCodec : TagCodec where
  read p _ v := (v.flac p).map (·.track p)
  check p _ v f :=
    if !v.isThere then .error (.metadata ("File not found: " ++ p.text))
    else if f.isEmpty then .ok ()
    else
      match v.flac p with
      | .error e => .error e
      | .ok flac =>
        if (flac.withFields f).fits then .ok ()
        else .error (.metadata "Attempted to read/write an abnormally large amount of data")
  retagged _ f content :=
    if f.isEmpty then content
    else
      match FlacFile.decode? content with
      | some flac => (flac.withFields f).encode
      | none => content

/-- Records by path. -/
structure TagRecords where
  records : List Track := []
  /-- A file without a record cannot be read. -/
  strict : Bool := false
  unreadable : List FilePath := []
  /-- What a write leaves at the end of its file. -/
  stamp : Option String := none

namespace TagRecords

def find? (r : TagRecords) (p : FilePath) : Option Track := r.records.find? (·.path.same p)

def read (r : TagRecords) (p : FilePath) : Except ServiceFailure Track :=
  if r.unreadable.any p.same then .error (.metadata "unreadable")
  else
    match r.find? p with
    | some t => .ok t
    | none => if r.strict then .error (.metadata ("no tags in " ++ p.text)) else .ok { path := p }

/-- Puts values into the record of a file. -/
def write (r : TagRecords) (p : FilePath) (f : TagFields) : TagRecords :=
  let t := ((r.find? p).getD { path := p }).withFields f
  { r with records := t :: r.records.filter fun u => !u.path.same p }

/-- The records after writes, the last of which comes first. -/
def after (r : TagRecords) (ws : List TagWrite) : TagRecords :=
  ws.foldr (fun w r => r.write w.path w.fields) r

/-- Tags in records; a write can leave a mark in its file. -/
def codec (r : TagRecords) : TagCodec where
  read p ws _ := (r.after ws).read p
  check _ _ _ _ := .ok ()
  retagged _ _ content :=
    match r.stamp with
    | none => content
    | some stamp => content ++ stamp.toUTF8

end TagRecords

namespace TagStore

/-- Tags in the files themselves. -/
def embedded : TagStore := { codec := flacCodec }

/-- Tags in records beside the files. -/
def records (r : TagRecords) : TagStore := { codec := r.codec }

end TagStore
end MusicImport
