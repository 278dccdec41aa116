import Mathlib.Data.List.Pairwise
import MusicImport.Catalog.Basic
import MusicImport.Proofs.Paths

/-! The rows of a catalog. An entry owns its rows: to remove it takes exactly these away, and to ask for
its tracks tells no others. Whatever is added comes after the rows that are there. -/
namespace MusicImport

/-- Whether a row goes when an entry is removed. -/
def EntryId.owns (row : ItemRow) : EntryId → Bool
  | .album id => row.album = some id
  | .item id => row.id = id

namespace Catalog

open FilePath

variable {c c' : Catalog} {id : EntryId}

/-- The files of the rows. -/
def paths (c : Catalog) : List FilePath := c.items.map (·.track.path)

/-- No two rows have one file. -/
def PathsDistinct (c : Catalog) : Prop := c.paths.Pairwise fun p q => ¬ p.same q

instance (c : Catalog) : Decidable c.PathsDistinct :=
  inferInstanceAs (Decidable (c.paths.Pairwise _))

/-- The rows that are left without some entries. -/
def without (c : Catalog) (ids : List EntryId) : List ItemRow :=
  c.items.filter fun row => !ids.any (·.owns row)

theorem remove_album (c : Catalog) (n : Int) : c.remove (.album n) =
    if c.albums.any (·.id = n) then
      .ok ((c.items.filter (·.album = some n)).map (·.track.path),
        { c with items := c.items.filter (·.album ≠ some n), albums := c.albums.filter (·.id ≠ n) })
    else .error (.notFound "Album" (toString n)) := by
  by_cases hany : c.albums.any (·.id = n)
  · simp only [remove, delete, if_pos hany]
  · simp only [remove, delete, if_neg hany]

theorem remove_item (c : Catalog) (n : Int) : c.remove (.item n) =
    match c.items.find? (·.id = n) with
    | some row => .ok ([row.track.path], { c with items := c.items.filter (·.id ≠ n) })
    | none => .error (.notFound "Item" (toString n)) := by
  simp only [remove, delete]
  cases c.items.find? (·.id = n) <;> rfl

/-- An entry that is removed has a row. An album takes the rows of its items with it. -/
theorem remove_ok {removed : List FilePath} (h : c.remove id = .ok (removed, c')) :
    match id with
    | .album n => (∃ row ∈ c.albums, row.id = n) ∧
        c' = { c with items := c.items.filter (·.album ≠ some n), albums := c.albums.filter (·.id ≠ n) }
    | .item n => (∃ row ∈ c.items, row.id = n) ∧ c' = { c with items := c.items.filter (·.id ≠ n) } := by
  cases id with
  | album n =>
    rw [remove_album] at h
    split at h
    next hany =>
      cases h
      exact ⟨by simpa using hany, rfl⟩
    · cases h
  | item n =>
    rw [remove_item] at h
    split at h
    next row hfind =>
      cases h
      exact ⟨⟨row, List.mem_of_find?_eq_some hfind, by simpa using List.find?_some hfind⟩, rfl⟩
    · cases h

theorem remove_eq {removed : List FilePath} (h : c.remove id = .ok (removed, c')) :
    c' = { c with
      items := c.items.filter fun row => !id.owns row
      albums := c.albums.filter fun row => id ≠ .album row.id } := by
  cases id with
  | album n =>
    obtain ⟨-, rfl⟩ := remove_ok h
    simp [EntryId.owns, eq_comm]
  | item n =>
    obtain ⟨-, rfl⟩ := remove_ok h
    have halbums : c.albums.filter (fun row => EntryId.item n ≠ .album row.id) = c.albums :=
      List.filter_eq_self.mpr (by simp)
    rw [halbums]
    simp [EntryId.owns]

theorem remove_items {removed : List FilePath} (h : c.remove id = .ok (removed, c')) :
    c'.items = c.items.filter fun row => !id.owns row := by rw [remove_eq h]

theorem remove_lastItem {removed : List FilePath} (h : c.remove id = .ok (removed, c')) :
    c'.lastItem = c.lastItem := by rw [remove_eq h]

/-- The files that are told are those of rows of the entry. -/
theorem remove_paths {removed : List FilePath} (h : c.remove id = .ok (removed, c')) {p : FilePath}
    (hp : p ∈ removed) : ∃ row ∈ c.items, id.owns row ∧ row.track.path = p := by
  cases id with
  | album n =>
    rw [remove_album] at h
    split at h
    · cases h
      obtain ⟨row, hrow, rfl⟩ := List.mem_map.mp hp
      obtain ⟨hmem, howned⟩ := List.mem_filter.mp hrow
      exact ⟨row, hmem, howned, rfl⟩
    · cases h
  | item n =>
    rw [remove_item] at h
    split at h
    next row hfind =>
      cases h
      obtain rfl := List.mem_singleton.mp hp
      exact ⟨row, List.mem_of_find?_eq_some hfind, by simpa [EntryId.owns] using List.find?_some hfind, rfl⟩
    · cases h

theorem without_nil (c : Catalog) : c.without [] = c.items := by simp [without]

theorem without_cons (h : c'.items = c.items.filter fun row => !id.owns row) (ids : List EntryId) :
    c'.without ids = c.without (id :: ids) := by
  unfold without
  rw [h, List.filter_filter]
  refine List.filter_congr fun row _ => ?_
  rw [List.any_cons, Bool.not_or, Bool.and_comm]

/-- Entries that are removed one after the other. -/
inductive Removes : Catalog → List EntryId → Catalog → Prop
  | nil (c : Catalog) : Removes c [] c
  | cons {c u c' : Catalog} {id : EntryId} {removed : List FilePath} {rest : List EntryId}
      (first : c.remove id = .ok (removed, u)) (then' : Removes u rest c') : Removes c (id :: rest) c'

namespace Removes

variable {ids : List EntryId}

theorem items_eq (h : c.Removes ids c') : c'.items = c.without ids := by
  induction h with
  | nil c => exact c.without_nil.symm
  | cons first _ ih => rw [ih, without_cons (remove_items first)]

theorem lastItem_eq (h : c.Removes ids c') : c'.lastItem = c.lastItem := by
  induction h with
  | nil c => rfl
  | cons first _ ih => rw [ih, remove_lastItem first]

/-- Only the entries and their rows are gone. -/
theorem catalog_eq (h : c.Removes ids c') :
    c' = { c with
      items := c.without ids
      albums := c.albums.filter fun row => .album row.id ∉ ids } := by
  induction h with
  | nil c =>
    have halbums : c.albums.filter (fun row => EntryId.album row.id ∉ []) = c.albums :=
      List.filter_eq_self.mpr (by simp)
    rw [without_nil, halbums]
  | @cons c u c' id removed rest first _ ih =>
    have hitems := without_cons (remove_items first) rest
    have hfirst := remove_eq first
    rw [ih, hitems, hfirst]
    simp [List.filter_filter, Bool.and_comm, eq_comm]

end Removes

/-- The files of entries that are removed one after the other. -/
def removedPaths (c : Catalog) : List EntryId → List FilePath
  | [] => []
  | id :: rest =>
    match c.remove id with
    | .ok (paths, u) => paths ++ u.removedPaths rest
    | .error _ => []

/-- They are files of rows of these entries. -/
theorem mem_removedPaths {ids : List EntryId} {p : FilePath} (h : p ∈ c.removedPaths ids) :
    ∃ row ∈ c.items, ids.any (·.owns row) ∧ row.track.path = p := by
  induction ids generalizing c with
  | nil => cases h
  | cons id rest ih =>
    unfold removedPaths at h
    split at h
    next paths u hremove =>
      obtain h | h := List.mem_append.mp h
      · obtain ⟨row, hrow, howned, hpath⟩ := remove_paths hremove h
        exact ⟨row, hrow, by simp [howned], hpath⟩
      · obtain ⟨row, hrow, howned, hpath⟩ := ih h
        rw [remove_items hremove] at hrow
        exact ⟨row, (List.mem_filter.mp hrow).1, by simp [howned], hpath⟩
    · cases h

/-- The tracks of an entry are those of its rows. -/
theorem mem_tracksOf {track : Track} (h : track ∈ c.tracksOf id) :
    ∃ row ∈ c.items, id.owns row ∧ row.track = track := by
  cases id with
  | album id =>
    obtain ⟨row, hrow, rfl⟩ := List.mem_map.mp h
    obtain ⟨hmem, hid⟩ := List.mem_filter.mp (List.mem_mergeSort.mp hrow)
    exact ⟨row, hmem, hid, rfl⟩
  | item id =>
    obtain ⟨row, hfind, rfl⟩ := Option.map_eq_some_iff.mp (Option.mem_toList.mp h)
    have howned := List.find?_some hfind
    exact ⟨row, List.mem_of_find?_eq_some hfind, howned, rfl⟩

/-- The rows of items that are added: their ids count on from the last one. -/
def addedRows (c : Catalog) (album : Option Int) (tracks : List Track) : List ItemRow :=
  tracks.mapIdx fun i track => ⟨c.lastItem + 1 + i, album, track.itemIdentity.key, stored track⟩

/-- Items that are added are stored in rows behind those that are there. -/
theorem addItems_items (c : Catalog) (album : Option Int) (tracks : List Track) :
    (tracks.foldl (fun c t => c.addItem album t) c).items = c.items ++ c.addedRows album tracks := by
  induction tracks generalizing c with
  | nil => simp [addedRows]
  | cons track tracks ih =>
    have hids (i : Nat) : c.lastItem + 1 + 1 + (i : Int) = c.lastItem + 1 + ((i + 1 : Nat) : Int) := by omega
    rw [List.foldl_cons, ih]
    simp [addedRows, addItem, List.mapIdx_cons, hids]

theorem addedRows_tracks (c : Catalog) (album : Option Int) (tracks : List Track) :
    (c.addedRows album tracks).map (·.track) = tracks.map stored :=
  List.ext_getElem? fun i => by simp [addedRows, Function.comp_def]

theorem addedRows_album {album : Option Int} {tracks : List Track} {row : ItemRow}
    (h : row ∈ c.addedRows album tracks) : row.album = album := by
  obtain ⟨i, hi, rfl⟩ := List.mem_mapIdx.mp h
  rfl

/-- The ids that are told of single items are those of their rows. -/
theorem add_ids (c : Catalog) (tracks : List Track) :
    (c.add tracks).1.map .item = (c.addedRows none tracks).map fun row => EntryId.item row.id :=
  List.ext_getElem? fun i => by simp [add, addedRows, Function.comp_def]

theorem add_rows (c : Catalog) (tracks : List Track) :
    ∃ rows, (c.add tracks).2.items = c.items ++ rows ∧ rows.map (·.track) = tracks.map stored ∧
      (c.add tracks).1.map .item = rows.map (EntryId.item ·.id) ∧ ∀ row ∈ rows, row.album = none :=
  ⟨_, addItems_items c none tracks, addedRows_tracks c none tracks, add_ids c tracks,
    fun _ => addedRows_album⟩

theorem addAlbum_rows (c : Catalog) (album : NewAlbum) (tracks : List Track) :
    ∃ rows, (c.addAlbum album tracks).2.items = c.items ++ rows ∧ rows.map (·.track) = tracks.map stored ∧
      ∀ row ∈ rows, row.album = some (c.addAlbum album tracks).1 :=
  ⟨_, addItems_items _ _ tracks, addedRows_tracks _ _ tracks, fun _ => addedRows_album⟩

theorem paths_of_stored {rows : List ItemRow} {tracks : List Track}
    (h : rows.map (·.track) = tracks.map stored) : rows.map (·.track.path) = tracks.map (·.path) := by
  have hpaths := congrArg (List.map (·.path)) h
  rw [List.map_map, List.map_map] at hpaths
  exact hpaths

theorem addItems_albums (c : Catalog) (album : Option Int) (tracks : List Track) :
    (tracks.foldl (fun c t => c.addItem album t) c).albums = c.albums := by
  induction tracks generalizing c with
  | nil => rfl
  | cons track tracks ih => exact ih _

theorem add_albums (c : Catalog) (tracks : List Track) : (c.add tracks).2.albums = c.albums :=
  addItems_albums c none tracks

theorem addAlbum_albums (c : Catalog) (album : NewAlbum) (tracks : List Track) :
    (c.addAlbum album tracks).2.albums =
      c.albums ++ [⟨(c.addAlbum album tracks).1, album, album.identity.key⟩] := addItems_albums _ _ tracks

/-- An album row with the key of an identity is found under it. -/
theorem mem_findDuplicates {row : AlbumRow} {identity : Identity} (hrow : row ∈ c.albums)
    (halbum : identity.isAlbum = true) (hkey : row.identityKey = identity.key) :
    ∃ e ∈ c.findDuplicates identity, e.id = .album row.id := by
  rw [findDuplicates, if_pos halbum]
  exact ⟨_, List.mem_map_of_mem (List.mem_filter.mpr ⟨hrow, decide_eq_true hkey⟩), rfl⟩

/-- What is found under the identity of a single item: the rows outside albums that have its key. -/
theorem found_item_iff {identity : Identity} {n : Int} (hitem : identity.isAlbum = false) :
    (∃ e ∈ c.findDuplicates identity, e.id = .item n) ↔
      ∃ row ∈ c.items, row.id = n ∧ row.album = none ∧ row.identityKey = identity.key := by
  rw [findDuplicates, if_neg (by simp [hitem])]
  constructor
  · rintro ⟨e, he, hid⟩
    obtain ⟨row, hrow, rfl⟩ := List.mem_map.mp he
    obtain ⟨hmem, hkeep⟩ := List.mem_filter.mp hrow
    obtain ⟨hkey, halbum⟩ := Bool.and_eq_true_iff.mp hkeep
    exact ⟨row, hmem, EntryId.item.inj hid, Option.isNone_iff_eq_none.mp halbum, of_decide_eq_true hkey⟩
  · rintro ⟨row, hmem, rfl, halbum, hkey⟩
    have hrow : row ∈ c.items.filter fun row => row.identityKey = identity.key && row.album.isNone := by
      simp [hmem, halbum, hkey]
    exact ⟨_, List.mem_map_of_mem hrow, rfl⟩

/-- No item has an id that is still to be given. -/
def Counted (c : Catalog) : Prop := ∀ row ∈ c.items, row.id ≤ c.lastItem

instance (c : Catalog) : Decidable c.Counted := inferInstanceAs (Decidable (∀ row ∈ c.items, _))

/-- Rows that are taken away leave the files of the others distinct. -/
theorem PathsDistinct.sublist (h : c.PathsDistinct) (hsub : c'.items.Sublist c.items) :
    c'.PathsDistinct := by
  have hpaths : c'.paths.Sublist c.paths := hsub.map _
  exact List.Pairwise.sublist hpaths h

/-- Different rows have different files. -/
theorem PathsDistinct.apart (h : c.PathsDistinct) {row other : ItemRow} (hrow : row ∈ c.items)
    (hother : other ∈ c.items) (hne : row ≠ other) : ¬ row.track.path.same other.track.path := by
  have hpairs : c.items.Pairwise fun a b => ¬ a.track.path.same b.track.path := List.pairwise_map.mp h
  have : Std.Symm fun a b : ItemRow => ¬ a.track.path.same b.track.path :=
    ⟨fun _ _ hab hba => hab (same_comm.mp hba)⟩
  exact hpairs.forall hrow hother hne

/-- A row that goes has the file of no row that stays. -/
theorem PathsDistinct.not_same (h : c.PathsDistinct) {ids : List EntryId} {row : ItemRow} {p : FilePath}
    (hrow : row ∈ c.items) (howned : ids.any (·.owns row))
    (hp : p ∈ (c.without ids).map (·.track.path)) : ¬ row.track.path.same p := by
  obtain ⟨other, hother, rfl⟩ := List.mem_map.mp hp
  obtain ⟨hmem, hkept⟩ := List.mem_filter.mp hother
  refine h.apart hrow hmem ?_
  rintro rfl
  simp [howned] at hkept

end Catalog
end MusicImport
