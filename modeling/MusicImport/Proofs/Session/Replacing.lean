import MusicImport.Proofs.Session.Shrinking

/-! What is left after old entries were removed for a task. The catalog loses these entries and nothing
else, or nothing at all. The files of their rows go, too, unless the task brings them under the same
path: a file that another row has, or that the task brings under another path, goes with them. -/
namespace MusicImport

namespace Catalog

variable {c c' : Catalog} {ids : List EntryId}

/-- What is removed was there. -/
theorem Removes.found (h : c.Removes ids c') : ∀ id ∈ ids, id ∈ c.entries := by
  induction h with
  | nil c => simp
  | @cons c u c' first removed rest hfirst _ ih =>
    refine List.forall_mem_cons.mpr ⟨?_, fun id hid => ?_⟩
    · cases first with
      | album n =>
        obtain ⟨⟨row, hrow, rfl⟩, -⟩ := remove_ok hfirst
        exact List.mem_append_left _ (List.mem_map_of_mem hrow)
      | item n =>
        obtain ⟨⟨row, hrow, rfl⟩, -⟩ := remove_ok hfirst
        exact List.mem_append_right _ (List.mem_map_of_mem hrow)
    · have hsub : u.entries.Sublist c.entries := by
        rw [remove_eq hfirst]
        exact (List.filter_sublist.map _).append (List.filter_sublist.map _)
      exact hsub.subset (ih id hid)

end Catalog

namespace Session

variable {s s' : Session} {env : Environment} {t : Task} {existing : List CatalogEntry}

/-- Some entries are gone, with their rows and with the files that a task does not bring. -/
structure Replaced (t : Task) (ids : List EntryId) (s s' : Session) : Prop where
  found : ∀ id ∈ ids, id ∈ s.catalog.entries
  catalog : s'.catalog = { s.catalog with
    items := s.catalog.without ids
    albums := s.catalog.albums.filter fun row => .album row.id ∉ ids }
  /-- A file is there as long as its path comes to no place that is emptied. -/
  files : ∀ path c, s'.files.read path = .ok c ↔ s.files.read path = .ok c ∧
    ∀ q ∈ s.files.taken (outdated s.catalog t ids), q ∉ s.files.passes path
  /-- What is emptied is the place of a row that goes, and the task does not bring its path. -/
  places : ∀ q ∈ s.files.taken (outdated s.catalog t ids), ∃ row ∈ s.catalog.items,
    ids.any (·.owns row) ∧ isClaimed (t.tracks.map (·.path)) row.track.path = false ∧
      s.files.locate row.track.path false = .ok q

theorem outdated_rows {c : Catalog} {ids : List EntryId} {p : FilePath} (h : p ∈ outdated c t ids) :
    ∃ row ∈ c.items, ids.any (·.owns row) ∧ isClaimed (t.tracks.map (·.path)) row.track.path = false ∧
      row.track.path = p := by
  obtain ⟨hp, hother⟩ := List.mem_filter.mp h
  obtain ⟨row, hrow, howned, rfl⟩ := Catalog.mem_removedPaths hp
  exact ⟨row, hrow, howned, by simpa using hother, rfl⟩

/-- Old entries are removed as a whole or not at all. A file goes with them if and only if its path comes
to the place of one of their rows, under a path that the task does not bring. -/
theorem removeOld_replaces {x : Except ServiceFailure Unit}
    (h : s.trying (removeOld env t existing) = (x, s')) :
    match x with
    | .error _ => s'.catalog = s.catalog ∧ s'.files = s.files
    | .ok () => Replaced t (existing.map (·.id)) s s' := by
  cases x with
  | error e =>
    have hkept := removeOld_error h
    exact ⟨hkept.catalog, hkept.files⟩
  | ok _ =>
    obtain ⟨hremoves, hfiles⟩ := removeOld_ok h
    refine ⟨hremoves.found, hremoves.catalog_eq, fun path c => ?_, fun q hq => ?_⟩
    · rw [hfiles]
      exact FileTree.read_removeFiles s.files _
    · obtain ⟨p, hp, hplace, -⟩ := FileTree.mem_taken hq
      obtain ⟨row, hrow, howned, hother, rfl⟩ := outdated_rows hp
      exact ⟨row, hrow, howned, hother, hplace⟩

/-- A later edition of an album. -/
def newEdition : Task :=
  { key := "in", isAlbum := true, state := .duplicateCheck, selection := some .asIs
    tracks := [{ path := ⟨"in/b.flac"⟩, title := some "B", album := some "X" }] }

/-- A library with albums of one song each. -/
def editions (albums : List (String × FilePath)) : Session :=
  { files := { nodes := [(["in"], .directory), (["in", "b.flac"], .file "new".toUTF8),
      (["lib"], .directory), (["lib", "A.flac"], .file "old".toUTF8)] }
    catalog := albums.foldl (fun c (album, path) =>
      (c.addAlbum { albumArtist := "", album } [{ path, album := some album }]).2) {} }

/-- The removal of the albums that the later edition duplicates. -/
def replaceEditions (albums : List (String × FilePath)) : Except ServiceFailure Unit × Session :=
  (editions albums).trying
    (removeOld (titleLibrary .copy) newEdition (rivals (editions albums).catalog newEdition))

theorem removeOld_replaces_edition :
    ∃ s', replaceEditions [("X", ⟨"lib/A.flac"⟩)] = (.ok (), s') ∧ s'.catalog.entries = [] ∧
      ∃ c, s'.files.read ⟨"in/b.flac"⟩ = .ok c := by
  have hok : (replaceEditions [("X", ⟨"lib/A.flac"⟩)]).1.toOption = some () := by decide
  have hreplaced := removeOld_replaces (x := .ok ()) (Prod.ext (toOption_eq_some.mp hok) rfl)
  refine ⟨_, Prod.ext (toOption_eq_some.mp hok) rfl, ?_, "new".toUTF8, ?_⟩
  · rw [hreplaced.catalog]
    decide
  · exact (hreplaced.files _ _).mpr ⟨toOption_eq_some.mp (by decide), by decide⟩

/-- Two albums that have one file, of which one stays. -/
def sharedEditions : List (String × FilePath) := [("X", ⟨"lib/A.flac"⟩), ("Y", ⟨"lib/A.flac"⟩)]

/-- An album that has the file that is to be imported, under another path. -/
def respelledEdition : List (String × FilePath) := [("X", ⟨"./in/b.flac"⟩)]

/-- The file of the album that stays is gone, and so is the file that is to be imported. -/
theorem removed_with_others :
    ((editions sharedEditions).files.exists? ⟨"lib/A.flac"⟩ ∧
      (replaceEditions sharedEditions).1 = .ok () ∧
      (replaceEditions sharedEditions).2.catalog.paths = [⟨"lib/A.flac"⟩] ∧
      (replaceEditions sharedEditions).2.files.exists? ⟨"lib/A.flac"⟩ = false) ∧
    (editions respelledEdition).files.exists? ⟨"in/b.flac"⟩ ∧
      (replaceEditions respelledEdition).1 = .ok () ∧
      newEdition.tracks.map (·.path) = [⟨"in/b.flac"⟩] ∧
      (replaceEditions respelledEdition).2.files.exists? ⟨"in/b.flac"⟩ = false := by
  refine ⟨⟨by decide, toOption_eq_some.mp (by decide), by decide, by decide⟩, by decide, ?_, rfl, by decide⟩
  exact toOption_eq_some.mp (by decide)

end Session
end MusicImport
