import MusicImport.Command.Run

/-! The files that a command needs besides those it imports, and what it changes in the end. -/
namespace MusicImport

namespace CommandCall

/-- The request of a call, and the options shared by all subcommands. -/
def shared (c : CommandCall) : Given :=
  match Request.ofWords c.vars c.words with
  | .stats shared => shared
  | .importing _ shared _ => shared
  | _ => []

/-- Whether the call imports. -/
def imports (c : CommandCall) : Bool :=
  match Request.ofWords c.vars c.words with
  | .importing _ _ _ => true
  | _ => false

/-- Where settings may be. -/
def settingsFiles (c : CommandCall) : List FilePath :=
  let named := ((c.shared.lookup "config").map (⟨·⟩)).getD CommandSettings.usualFile
  named :: SettingsFormat.all.map fun f => ⟨named.text ++ "." ++ f.extension⟩

/-- The catalog and the journal, by the settings in a tree. -/
def stateFiles (c : CommandCall) (t : FileTree) : List FilePath :=
  let s := (CommandSettings.load? t ((c.shared.lookup "config").map (⟨·⟩)) c.vars).getD {}
  let url := (c.shared.lookup "database-url").getD s.catalog
  let catalog : List FilePath :=
    match CatalogLocation.ofUrl? url with
    | some (.file p _) => [p]
    | _ => []
  let journal :=
    match Request.ofWords c.vars c.words with
    | .importing _ _ own => (s.importing.withOptions own).journalPath
    | _ => s.importing.journalPath
  catalog ++ [journal]

end CommandCall

/-- A difference between two states of files; the paths start at the root. -/
inductive FileChange
  | makeDirectory (path : FilePath)
  /-- A new content, in place of an old one or not. -/
  | write (path : FilePath) (content : ByteArray) (replaces : Bool)
  | remove (path : FilePath)

/-- The path of a place from the root. -/
def FilePath.fromRoot (p : FilePath) : FilePath := ⟨"/" ++ p.text⟩

/-- The changes from one state of files to another: directories first, removals last. -/
def FileTree.changesTo (old new : FileTree) : List FileChange :=
  let oldFiles := old.fileList
  let newFiles := new.fileList
  let directories := new.directoryList.filter fun p => !old.directoryList.contains p
  let written := newFiles.filterMap fun (p, content) =>
    match oldFiles.find? (·.1 = p) with
    | none => some (.write p.fromRoot content false)
    | some (_, before) => if before == content then none else some (.write p.fromRoot content true)
  let removed := oldFiles.filter fun (p, _) => !newFiles.any (·.1 = p)
  directories.map (.makeDirectory ·.fromRoot) ++ written ++ removed.map (.remove ·.1.fromRoot)

end MusicImport
