import Mathlib.Data.List.Basic
import MusicImport.Catalog.Store
import MusicImport.Proofs.Catalog.Columns
import MusicImport.Proofs.Catalog.Rows

/-! What writes do to the rows of a catalog. A removal takes the rows of its entry, whatever is added comes
behind the rows that are there, and ids only count up. So the rows stay in order of their ids, and an id that
was given once stays with its row. -/
namespace MusicImport

open CatalogWrite

section Ids

variable {α : Type} {id : α → Int} {l r : List α} {a b : α}

/-- Only one entry has an id, where ids ascend. -/
theorem filter_id_eq (h : (l ++ a :: r).Pairwise fun x y => id x < id y) :
    (l ++ a :: r).filter (fun x => id x = id a) = [a] := by
  obtain ⟨-, hr, hl⟩ := List.pairwise_append.mp h
  have hleft : l.filter (fun x => id x = id a) = [] := by
    refine List.filter_eq_nil_iff.mpr fun x hx => ?_
    have hlt := hl x hx a (List.mem_cons_self ..)
    simp [Int.ne_of_lt hlt]
  have hright : r.filter (fun x => id x = id a) = [] := by
    refine List.filter_eq_nil_iff.mpr fun x hx => ?_
    have hlt := (List.pairwise_cons.mp hr).1 x hx
    simp [Int.ne_of_gt hlt]
  rw [List.filter_append, List.filter_cons_of_pos (by simp), hleft, hright, List.nil_append]

theorem filter_id_ne (h : (l ++ a :: r).Pairwise fun x y => id x < id y) :
    (l ++ a :: r).filter (fun x => id x ≠ id a) = l ++ r := by
  obtain ⟨-, hr, hl⟩ := List.pairwise_append.mp h
  have hleft : l.filter (fun x => id x ≠ id a) = l := by
    refine List.filter_eq_self.mpr fun x hx => ?_
    have hlt := hl x hx a (List.mem_cons_self ..)
    simp [Int.ne_of_lt hlt]
  have hright : r.filter (fun x => id x ≠ id a) = r := by
    refine List.filter_eq_self.mpr fun x hx => ?_
    have hlt := (List.pairwise_cons.mp hr).1 x hx
    simp [Int.ne_of_gt hlt]
  rw [List.filter_append, List.filter_cons_of_neg (by simp), hleft, hright]

theorem eq_of_id_eq (h : l.Pairwise fun x y => id x < id y) (ha : a ∈ l) (hb : b ∈ l) (hid : id a = id b) :
    a = b := by
  obtain ⟨l, r, rfl⟩ := List.append_of_mem hb
  have hmem : a ∈ (l ++ b :: r).filter fun x => id x = id b :=
    List.mem_filter.mpr ⟨ha, decide_eq_true hid⟩
  rw [filter_id_eq h] at hmem
  exact List.mem_singleton.mp hmem

/-- Entries that count on from the last ones. -/
theorem pairwise_append_ids {last : Int} (hl : l.Pairwise fun x y => id x < id y)
    (hr : r.Pairwise fun x y => id x < id y) (hlast : ∀ x ∈ l, id x ≤ last) (hnext : ∀ x ∈ r, last < id x) :
    (l ++ r).Pairwise fun x y => id x < id y := by
  refine List.pairwise_append.mpr ⟨hl, hr, fun x hx y hy => ?_⟩
  have hx := hlast x hx
  have hy := hnext y hy
  omega

end Ids

namespace CatalogWrite

/-- Whether a write takes a row of an item. -/
def takesItem (row : ItemRow) : CatalogWrite → Bool
  | .remove id => id.owns row
  | _ => false

/-- Whether a write takes a row of an album. -/
def takesAlbum (row : AlbumRow) : CatalogWrite → Bool
  | .remove id => id = .album row.id
  | _ => false

end CatalogWrite

namespace Catalog

variable {c : Catalog} {w : CatalogWrite} {row : ItemRow}

/-- The rows that a write adds for its tracks. -/
def newItems (c : Catalog) : CatalogWrite → List ItemRow
  | .add tracks => c.addedRows none (tracks.map (·.kept))
  | .addAlbum _ tracks => c.addedRows (some (c.lastAlbum + 1)) (tracks.map (·.kept))
  | .remove _ => []

/-- The row that a write adds for its album. -/
def newAlbums (c : Catalog) : CatalogWrite → List AlbumRow
  | .addAlbum album _ => [⟨c.lastAlbum + 1, album.kept, album.identity.key⟩]
  | _ => []

@[simp] theorem length_addedRows (c : Catalog) (album : Option Int) (tracks : List Track) :
    (c.addedRows album tracks).length = tracks.length := by simp [addedRows]

theorem addItems_lastItem (c : Catalog) (album : Option Int) (tracks : List Track) :
    (tracks.foldl (fun c t => c.addItem album t) c).lastItem = c.lastItem + tracks.length := by
  induction tracks generalizing c with
  | nil => simp
  | cons track tracks ih =>
    rw [List.foldl_cons, ih]
    simp only [addItem, List.length_cons]
    omega

theorem addItems_lastAlbum (c : Catalog) (album : Option Int) (tracks : List Track) :
    (tracks.foldl (fun c t => c.addItem album t) c).lastAlbum = c.lastAlbum := by
  induction tracks generalizing c with
  | nil => rfl
  | cons track tracks ih => exact ih _

/-- All that adding items does. -/
theorem addItems_eq (c : Catalog) (album : Option Int) (tracks : List Track) :
    tracks.foldl (fun c t => c.addItem album t) c =
      { c with items := c.items ++ c.addedRows album tracks, lastItem := c.lastItem + tracks.length } := by
  rw [Catalog.mk.injEq]
  exact ⟨addItems_albums c album tracks, addItems_items c album tracks, addItems_lastAlbum c album tracks,
    addItems_lastItem c album tracks⟩

/-- What is left after a removal, also after one that fails. -/
theorem delete_state (c : Catalog) (id : EntryId) : (c.delete id).2 =
    { c with
      albums := c.albums.filter fun row => !(CatalogWrite.remove id).takesAlbum row
      items := c.items.filter fun row => !(CatalogWrite.remove id).takesItem row } := by
  cases id with
  | album n =>
    have hstate : (c.delete (.album n)).2 =
        { c with items := c.items.filter (·.album ≠ some n), albums := c.albums.filter (·.id ≠ n) } := by
      simp only [delete]
      split <;> rfl
    rw [hstate]
    simp [takesItem, takesAlbum, EntryId.owns, eq_comm]
  | item n =>
    have halbums : c.albums.filter (fun row => !(CatalogWrite.remove (.item n)).takesAlbum row) = c.albums :=
      List.filter_eq_self.mpr (by simp [takesAlbum])
    rw [halbums]
    simp only [delete]
    split
    · simp [takesItem, EntryId.owns]
    next hnone =>
      have hitems : c.items.filter (fun row => !(CatalogWrite.remove (.item n)).takesItem row) = c.items := by
        refine List.filter_eq_self.mpr fun row hrow => ?_
        have hid := List.find?_eq_none.mp hnone row hrow
        simpa [takesItem, EntryId.owns] using hid
      rw [hitems]

/-- All that a write does to the rows: some go, and new ones count on. -/
theorem write_state (c : Catalog) (w : CatalogWrite) : (c.write w).2 =
    { albums := c.albums.filter (fun row => !w.takesAlbum row) ++ c.newAlbums w
      items := c.items.filter (fun row => !w.takesItem row) ++ c.newItems w
      lastAlbum := c.lastAlbum + (c.newAlbums w).length
      lastItem := c.lastItem + (c.newItems w).length } := by
  cases w with
  | add tracks =>
    simp only [write, add, addItems_eq]
    simp [takesAlbum, takesItem, newAlbums, newItems]
  | addAlbum album tracks =>
    simp only [write, addAlbum, addItems_eq]
    simp [takesAlbum, takesItem, newAlbums, newItems, addedRows]
  | remove id =>
    have hstate : (c.write (.remove id)).2 = (c.delete id).2 := by
      simp only [write]
      split <;> simp_all
    rw [hstate, delete_state]
    simp [newAlbums, newItems]

theorem addedRows_ids {album : Option Int} {tracks : List Track} (h : row ∈ c.addedRows album tracks) :
    c.lastItem < row.id ∧ row.id ≤ c.lastItem + tracks.length := by
  obtain ⟨i, hi, rfl⟩ := List.mem_mapIdx.mp h
  show c.lastItem < c.lastItem + 1 + i ∧ c.lastItem + 1 + i ≤ _
  omega

theorem addedRows_pairwise (c : Catalog) (album : Option Int) (tracks : List Track) :
    (c.addedRows album tracks).Pairwise fun a b => a.id < b.id := by
  rw [List.pairwise_iff_getElem]
  intro i j hi hj hij
  simp only [addedRows, List.getElem_mapIdx]
  omega

/-- New rows of items count on from the last id, and they belong to no album of before. -/
theorem newItems_ids (h : row ∈ c.newItems w) :
    c.lastItem < row.id ∧ row.id ≤ c.lastItem + (c.newItems w).length ∧ ∀ n ∈ row.album, c.lastAlbum < n := by
  cases w with
  | add tracks =>
    have hids := addedRows_ids h
    have halbum := addedRows_album h
    simp only [newItems, length_addedRows]
    exact ⟨hids.1, hids.2, by simp [halbum]⟩
  | addAlbum album tracks =>
    have hids := addedRows_ids h
    have halbum := addedRows_album h
    simp only [newItems, length_addedRows]
    refine ⟨hids.1, hids.2, fun n hn => ?_⟩
    rw [halbum, Option.mem_some_iff] at hn
    omega
  | remove id => cases h

theorem newItems_pairwise (c : Catalog) (w : CatalogWrite) :
    (c.newItems w).Pairwise fun a b => a.id < b.id := by
  cases w with
  | add tracks => exact addedRows_pairwise ..
  | addAlbum album tracks => exact addedRows_pairwise ..
  | remove id => exact .nil

theorem newAlbums_ids {row : AlbumRow} (h : row ∈ c.newAlbums w) :
    row.id = c.lastAlbum + 1 ∧ (c.newAlbums w).length = 1 := by
  cases w with
  | addAlbum album tracks =>
    obtain rfl := List.mem_singleton.mp h
    exact ⟨rfl, rfl⟩
  | add tracks => cases h
  | remove id => cases h

/-- New items come with their album. -/
theorem newItems_refer (h : row ∈ c.newItems w) : ∀ n ∈ row.album, ∃ a ∈ c.newAlbums w, a.id = n := by
  intro n hn
  cases w with
  | add tracks => rw [addedRows_album h] at hn; cases hn
  | addAlbum album tracks =>
    rw [addedRows_album h, Option.mem_some_iff] at hn
    exact ⟨_, List.mem_singleton.mpr rfl, hn⟩
  | remove id => cases h

/-- Every item of an album refers to a row of an album. -/
def Refers (c : Catalog) : Prop := ∀ row ∈ c.items, ∀ n ∈ row.album, ∃ a ∈ c.albums, a.id = n

/-- Rows in order of their ids, which were all given, where items refer to albums that are there. -/
structure Sound (c : Catalog) : Prop where
  items : c.items.Pairwise fun a b => a.id < b.id
  albums : c.albums.Pairwise fun a b => a.id < b.id
  counted : c.Counted
  albumsCounted : ∀ row ∈ c.albums, row.id ≤ c.lastAlbum
  refers : c.Refers

theorem sound_empty : ({} : Catalog).Sound where
  items := .nil
  albums := .nil
  counted _ h := by cases h
  albumsCounted _ h := by cases h
  refers _ h := by cases h

/-- An album keeps its row as long as one of its items is left. -/
theorem Refers.write (h : c.Refers) (w : CatalogWrite) : (c.write w).2.Refers := by
  rw [write_state]
  intro row hrow n hn
  obtain hrow | hrow := List.mem_append.mp hrow
  · obtain ⟨hrow, hkept⟩ := List.mem_filter.mp hrow
    obtain ⟨a, ha, rfl⟩ := h row hrow n hn
    have hstays : !w.takesAlbum a := by
      cases w with
      | remove id =>
        cases id with
        | album m =>
          -- an item of the album that goes would have gone with it
          have halbum : row.album ≠ some m := by simpa [takesItem, EntryId.owns] using hkept
          have hne : m ≠ a.id := fun heq => halbum (heq ▸ hn)
          simpa [takesAlbum] using hne
        | item m => simp [takesAlbum]
      | add tracks => rfl
      | addAlbum album tracks => rfl
    exact ⟨a, List.mem_append_left _ (List.mem_filter.mpr ⟨ha, hstays⟩), rfl⟩
  · obtain ⟨a, ha, hid⟩ := newItems_refer hrow n hn
    exact ⟨a, List.mem_append_right _ ha, hid⟩

theorem Sound.write (h : c.Sound) (w : CatalogWrite) : (c.write w).2.Sound := by
  have hrefers := h.refers.write w
  rw [write_state] at hrefers ⊢
  constructor
  · show List.Pairwise _ (_ ++ _)
    have hearlier : ∀ row ∈ c.items.filter (fun row => !w.takesItem row), row.id ≤ c.lastItem :=
      fun row hrow => h.counted row (List.mem_filter.mp hrow).1
    exact pairwise_append_ids (h.items.filter _) (newItems_pairwise c w) hearlier
      fun row hrow => (newItems_ids hrow).1
  · show List.Pairwise _ (_ ++ _)
    have hone : (c.newAlbums w).Pairwise fun a b => a.id < b.id := by
      cases w with
      | addAlbum album tracks => exact List.pairwise_singleton _ _
      | add tracks => exact .nil
      | remove id => exact .nil
    have hearlier : ∀ row ∈ c.albums.filter (fun row => !w.takesAlbum row), row.id ≤ c.lastAlbum :=
      fun row hrow => h.albumsCounted row (List.mem_filter.mp hrow).1
    refine pairwise_append_ids (h.albums.filter _) hone hearlier fun row hrow => ?_
    have hid := (newAlbums_ids hrow).1
    omega
  · intro row hrow
    show row.id ≤ c.lastItem + (c.newItems w).length
    obtain hrow | hrow := List.mem_append.mp hrow
    · have hid := h.counted row (List.mem_filter.mp hrow).1
      omega
    · exact (newItems_ids hrow).2.1
  · intro row hrow
    show row.id ≤ c.lastAlbum + (c.newAlbums w).length
    obtain hrow | hrow := List.mem_append.mp hrow
    · have hid := h.albumsCounted row (List.mem_filter.mp hrow).1
      omega
    · obtain ⟨hid, hlength⟩ := newAlbums_ids hrow
      omega
  · exact hrefers

def writeAll (c : Catalog) (ws : List CatalogWrite) : Catalog := ws.foldl (fun c w => (c.write w).2) c

theorem writeAll_cons (c : Catalog) (w : CatalogWrite) (ws : List CatalogWrite) :
    c.writeAll (w :: ws) = (c.write w).2.writeAll ws := rfl

theorem writeAll_append (c : Catalog) (ws ws' : List CatalogWrite) :
    c.writeAll (ws ++ ws') = (c.writeAll ws).writeAll ws' := List.foldl_append

theorem Sound.writeAll (h : c.Sound) (ws : List CatalogWrite) : (c.writeAll ws).Sound := by
  induction ws generalizing c with
  | nil => exact h
  | cons w ws ih => exact ih (h.write w)

/-- What is left after a write and then more of them. -/
theorem filter_untaken {α : Type} (takes : α → CatalogWrite → Bool) (w : CatalogWrite) (ws : List CatalogWrite)
    (rows : List α) : (rows.filter fun row => !takes row w).filter (fun row => !ws.any (takes row)) =
      rows.filter fun row => !(w :: ws).any (takes row) := by
  rw [List.filter_filter]
  refine List.filter_congr fun row _ => ?_
  rw [List.any_cons, Bool.not_or, Bool.and_comm]

/-- The rows of items that are left after writes, and behind them those that the writes brought. The latter have
ids that were not given before, and so have their albums. -/
theorem writeAll_items (c : Catalog) (ws : List CatalogWrite) : ∃ newer,
    (c.writeAll ws).items = c.items.filter (fun row => !ws.any (·.takesItem row)) ++ newer ∧
      ∀ row ∈ newer, c.lastItem < row.id ∧ ∀ n ∈ row.album, c.lastAlbum < n := by
  induction ws generalizing c with
  | nil => exact ⟨[], by simp [writeAll], by simp⟩
  | cons w ws ih =>
    obtain ⟨newer, hitems, hids⟩ := ih (c.write w).2
    rw [write_state] at hids
    refine ⟨(c.newItems w).filter (fun row => !ws.any (·.takesItem row)) ++ newer, ?_, fun row hrow => ?_⟩
    · rw [writeAll_cons, hitems, write_state, List.filter_append, filter_untaken takesItem, List.append_assoc]
    · obtain hrow | hrow := List.mem_append.mp hrow
      · obtain ⟨hid, -, halbum⟩ := newItems_ids (List.mem_filter.mp hrow).1
        exact ⟨hid, halbum⟩
      · obtain ⟨hid, halbum⟩ := hids row hrow
        dsimp only at hid halbum
        refine ⟨by omega, fun n hn => ?_⟩
        have hn := halbum n hn
        omega

theorem writeAll_albums (c : Catalog) (ws : List CatalogWrite) : ∃ newer,
    (c.writeAll ws).albums = c.albums.filter (fun row => !ws.any (·.takesAlbum row)) ++ newer ∧
      ∀ row ∈ newer, c.lastAlbum < row.id := by
  induction ws generalizing c with
  | nil => exact ⟨[], by simp [writeAll], by simp⟩
  | cons w ws ih =>
    obtain ⟨newer, halbums, hids⟩ := ih (c.write w).2
    rw [write_state] at hids
    refine ⟨(c.newAlbums w).filter (fun row => !ws.any (·.takesAlbum row)) ++ newer, ?_, fun row hrow => ?_⟩
    · rw [writeAll_cons, halbums, write_state, List.filter_append, filter_untaken takesAlbum, List.append_assoc]
    · obtain hrow | hrow := List.mem_append.mp hrow
      · have hid := (newAlbums_ids (List.mem_filter.mp hrow).1).1
        omega
      · have hid := hids row hrow
        dsimp only at hid
        omega

end Catalog
end MusicImport
