import MusicImport.Command.Files
import Std.Time.DateTime.Timestamp

/-! The command on the files of the system. An import takes the names of files and directories,
those to import and those of the library, from standard input, one on a line. -/
namespace MusicImport

/-- A file of the system added to a tree, if there is such a file. -/
def loadFile (t : FileTree) (p : FilePath) : IO FileTree := do
  try
    let content ← IO.FS.readBinFile p.text
    return (t.addFile p content).toOption.getD t
  catch _ => return t

/-- A file or a directory of the system added to a tree. -/
def loadNamed (t : FileTree) (p : FilePath) : IO FileTree := do
  let t ← loadFile t p
  if t.exists? p then return t else return (t.ensureDirectory p).toOption.getD t

/-- Carries out a change. A file that was not named is never written over. -/
def FileChange.perform : FileChange → IO Unit
  | .makeDirectory p => IO.FS.createDirAll p.text
  | .remove p => IO.FS.removeFile p.text
  | .write p content replaces => do
    if !replaces && (← loadFile {} p).exists? p then
      throw (IO.userError (p.text ++ " is in the way; its name was not given"))
    IO.FS.writeBinFile p.text content

/-- The variables that the process was started with. -/
def readVariables : IO Variables := do
  try
    let content ← IO.FS.readBinFile "/proc/self/environ"
    return (Text.split '\x00' (Text.lossy content)).map fun entry =>
      let cs := entry.toList
      (String.ofList (cs.takeWhile (· != '=')), String.ofList ((cs.dropWhile (· != '=')).drop 1))
  catch _ => return []

def readTime : IO Timestamp := do
  let now ← Std.Time.Timestamp.now
  return Timestamp.ofNanoseconds now.toNanosecondsSinceUnixEpoch.val.toNat

/-- The files that a call works on. -/
def loadFiles (c : CommandCall) : IO FileTree := do
  let here : FilePath := ⟨toString (← IO.currentDir)⟩
  let t := ({} : FileTree).ensureDirectory here
  let t : FileTree := { t.toOption.getD {} with
    workingDirectory := here.components.filterMap fun
      | .name n => some n
      | _ => none }
  let t ← c.settingsFiles.foldlM loadFile t
  let t ← (c.stateFiles t).foldlM loadFile t
  if !c.imports then return t
  let lines ← (← IO.getStdin).lines
  (lines.toList.filter (· != "")).foldlM (fun t name => loadNamed t ⟨name⟩) t

/-- Runs a call, carries out its changes and prints its output. -/
def perform (c : CommandCall) : IO UInt32 := do
  let start ← IO.monoMsNow
  let t ← loadFiles c
  let (r, after) := c.run t
  for change in t.changesTo after do change.perform
  let seconds := ((← IO.monoMsNow) - start) / 1000
  for line in r.output do
    match line with
    | .plain text => IO.println text
    | .timed text => IO.println (text ++ " in " ++ toString seconds ++ "s")
  if let some complaint := r.complaint then IO.eprintln complaint
  return r.exitCode.toUInt32

end MusicImport

def main (args : List String) : IO UInt32 := do
  MusicImport.perform
    ⟨args, ← MusicImport.readVariables, ← MusicImport.readTime⟩
