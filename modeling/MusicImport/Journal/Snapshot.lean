import MusicImport.Failure
import MusicImport.Files.Tree
import MusicImport.Journal.Entry

/-! The resume journal: one line per settled group, later lines overriding earlier ones. A line
without an end was interrupted while it was written and does not count. -/
namespace MusicImport

/-- What a journal says of each group. -/
structure JournalSnapshot where
  entries : List ResumeEntry := []

namespace JournalSnapshot

/-- The last entry of a group. -/
def get? (s : JournalSnapshot) (key : GroupKey) : Option ResumeEntry :=
  s.entries.find? (·.key = key)

/-- The snapshot after one more entry. -/
def insert (s : JournalSnapshot) (e : ResumeEntry) : JournalSnapshot :=
  ⟨e :: s.entries.filter (·.key ≠ e.key)⟩

@[simp] theorem get?_insert_self (s : JournalSnapshot) (e : ResumeEntry) :
    (s.insert e).get? e.key = some e := by simp [get?, insert]

theorem get?_insert_of_ne (s : JournalSnapshot) (e : ResumeEntry) {key : GroupKey}
    (h : key ≠ e.key) : (s.insert e).get? key = s.get? key := by
  have h' : e.key ≠ key := fun he => h he.symm
  simp only [get?, insert, List.find?_cons, h', decide_false, List.find?_filter]
  congr 1
  funext x
  by_cases hx : x.key = key <;> simp [hx, h]

/-- The snapshot of entries in the order they were written. -/
def ofEntries (es : List ResumeEntry) : JournalSnapshot := es.foldl insert {}

/-- Groups that ended well or were skipped. -/
def settledKeys (s : JournalSnapshot) : List GroupKey :=
  (s.entries.filter (·.outcome.isSettled)).map (·.key)

/-- The steps that a failed attempt had completed. -/
def completedSteps (s : JournalSnapshot) (key : GroupKey) : List ApplyStep :=
  match s.get? key with
  | some e => if e.outcome = .failed then e.completedSteps else []
  | none => []

/-- Reads the lines of a journal, blank ones apart; an error is the number of the first line that
is no entry. -/
def ofLines : (number : Nat) → JournalSnapshot → List (List Char) → Except Nat JournalSnapshot
  | _, s, [] => .ok s
  | number, s, line :: rest =>
    if (Text.trimChars line).isEmpty then ofLines (number + 1) s rest
    else
      match ResumeEntry.ofLine? (String.ofList line) with
      | some e => ofLines (number + 1) (s.insert e) rest
      | none => .error number

/-- The snapshot of a journal's text; what follows the last line end is left out. -/
def ofText (text : String) : Except Nat JournalSnapshot :=
  ofLines 1 {} (Text.splitChars '\n' text.toList).dropLast

/-- The snapshot of a journal file. One that does not exist is empty. -/
def load (t : FileTree) (path : FilePath) : Except ImportFailure JournalSnapshot :=
  match t.readText path with
  | .error .notFound => .ok {}
  | .error e => .error (.io e)
  | .ok text =>
    match ofText text with
    | .ok s => .ok s
    | .error line => .error (.corruptJournal path line "")

end JournalSnapshot

/-- Where the next line of a journal file goes. -/
structure JournalWriter where
  path : FilePath
  position : Nat

namespace JournalWriter

/-- The bytes up to the last line end, with it. -/
def completeLines (bytes : List UInt8) : List UInt8 :=
  (bytes.reverse.dropWhile (· != 10)).reverse

/-- Opens a journal for appending: makes it if need be and drops an interrupted line. -/
def openAt (t : FileTree) (path : FilePath) :
    Except ImportFailure JournalWriter × FileTree :=
  match
    (match path.parent? with
      | some parent => t.ensureDirectory parent
      | none => .ok t) with
  | .error e => (.error (.io e), t)
  | .ok t =>
    let content : Except IoError (List UInt8) :=
      match t.read path with
      | .ok bytes => .ok bytes.toList
      | .error .notFound => .ok []
      | .error e => .error e
    match content with
    | .error e => (.error (.io e), t)
    | .ok bytes =>
      let kept := completeLines bytes
      match t.write path ⟨kept.toArray⟩ with
      | .error e => (.error (.io e), t)
      | .ok t => (.ok ⟨path, kept.length⟩, t)

/-- Bytes with others written over them from a position on, zeros in between if it is beyond the
end. -/
def overwrite (bytes : List UInt8) (position : Nat) (new : List UInt8) : List UInt8 :=
  bytes.take position ++ List.replicate (position - bytes.length) 0 ++ new ++
    bytes.drop (position + new.length)

/-- Appends the line of an entry. Where the file was removed since it was opened, the line goes with
it. -/
def append (w : JournalWriter) (t : FileTree) (e : ResumeEntry) :
    Except ImportFailure (JournalWriter × FileTree) :=
  let line := (String.ofList e.line).toUTF8.toList
  let after : JournalWriter := { w with position := w.position + line.length }
  match t.read w.path with
  | .error _ => .ok (after, t)
  | .ok bytes =>
    match t.write w.path ⟨(overwrite bytes.toList w.position line).toArray⟩ with
    | .error e => .error (.io e)
    | .ok t => .ok (after, t)

end JournalWriter
end MusicImport
