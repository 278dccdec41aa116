import MusicImport.Proofs.Catalog.Writes

/-! Histories of transactions. The rows are what the writes of the committed transactions leave, one after the
other, and an open transaction sees them with its own writes behind. So what every write preserves holds at
every moment: items refer to albums, a removal takes exactly its entry or changes nothing, and an id stays with
its row. -/
namespace MusicImport

open CatalogWrite

/-- A transaction with all that it writes. -/
structure Transaction where
  writes : List CatalogWrite
  ending : TransactionEnd

/-- The writes that count, in their order. -/
def committedWrites (history : List Transaction) : List CatalogWrite :=
  history.flatMap fun t => if t.ending = .commit then t.writes else []

theorem committedWrites_append (past future : List Transaction) :
    committedWrites (past ++ future) = committedWrites past ++ committedWrites future := List.flatMap_append

namespace Catalog

/-- The rows that writes leave of an empty catalog. -/
def written (log : List CatalogWrite) : Catalog := writeAll {} log

theorem written_append (log log' : List CatalogWrite) : written (log ++ log') = (written log).writeAll log' :=
  writeAll_append {} log log'

theorem sound_written (log : List CatalogWrite) : (written log).Sound := sound_empty.writeAll log

end Catalog

namespace CatalogStore

open Catalog

variable {s : CatalogStore}

def writeAll (s : CatalogStore) (ws : List CatalogWrite) : CatalogStore :=
  ws.foldl (fun s w => (s.write w).2) s

/-- A whole transaction. -/
def perform (s : CatalogStore) (t : Transaction) : CatalogStore :=
  (s.begin.writeAll t.writes).finish t.ending

/-- What a history of transactions leaves. -/
def after (history : List Transaction) : CatalogStore := history.foldl perform {}

/-- In a transaction after others, which has written already. -/
def during (history : List Transaction) (ws : List CatalogWrite) : CatalogStore :=
  (after history).begin.writeAll ws

theorem writeAll_rows (s : CatalogStore) (ws : List CatalogWrite) : (s.writeAll ws).rows = s.rows := by
  induction ws generalizing s with
  | nil => rfl
  | cons w ws ih => exact ih _

theorem writeAll_transaction (s : CatalogStore) (ws : List CatalogWrite) :
    (s.writeAll ws).transaction = s.transaction.writeAll ws := by
  induction ws generalizing s with
  | nil => rfl
  | cons w ws ih => exact ih _

theorem perform_rows (s : CatalogStore) (t : Transaction) :
    (s.perform t).rows = s.rows.writeAll (committedWrites [t]) := by
  unfold perform committedWrites
  rw [List.flatMap_singleton]
  cases t.ending with
  | commit => exact writeAll_transaction s.begin t.writes
  | rollback => exact writeAll_rows s.begin t.writes
  | drop => exact writeAll_rows s.begin t.writes

/-- The rows are those that the committed writes leave. -/
theorem after_rows (history : List Transaction) : (after history).rows = written (committedWrites history) := by
  suffices h : ∀ s : CatalogStore, (history.foldl perform s).rows = s.rows.writeAll (committedWrites history) from
    h {}
  intro s
  induction history generalizing s with
  | nil => rfl
  | cons t history ih =>
    have happend := committedWrites_append [t] history
    rw [List.singleton_append] at happend
    rw [List.foldl_cons, ih, perform_rows, happend, writeAll_append]

theorem during_rows (history : List Transaction) (ws : List CatalogWrite) :
    (during history ws).rows = (after history).rows := writeAll_rows _ ws

theorem during_transaction (history : List Transaction) (ws : List CatalogWrite) :
    (during history ws).transaction = written (committedWrites history ++ ws) := by
  rw [written_append, ← after_rows]
  exact writeAll_transaction _ ws

end CatalogStore

namespace Catalog

variable {c : Catalog} {log : List CatalogWrite}

/-- There is an entry. -/
def Has (c : Catalog) : EntryId → Prop
  | .album n => ∃ row ∈ c.albums, row.id = n
  | .item n => ∃ row ∈ c.items, row.id = n

/-- The failure that tells of an entry that is not there. -/
def missing : EntryId → ServiceFailure
  | .album n => .notFound "Album" (toString n)
  | .item n => .notFound "Item" (toString n)

/-- A removal takes the row of its entry, and with an album those of its items, and tells their paths in order of
the rows. It fails where the entry is not there, and then nothing changes. -/
structure RemovesExactly (c : Catalog) : Prop where
  album : ∀ l row r, c.albums = l ++ row :: r → c.write (.remove (.album row.id)) =
    (.removed ((c.items.filter (·.album = some row.id)).map (·.track.path)),
      { c with albums := l ++ r, items := c.items.filter (·.album ≠ some row.id) })
  item : ∀ l row r, c.items = l ++ row :: r → c.write (.remove (.item row.id)) =
    (.removed [row.track.path], { c with items := l ++ r })
  fails : ∀ id, (c.write (.remove id)).1 = .failed (missing id) ↔ ¬ c.Has id
  unchanged : ∀ id e, (c.write (.remove id)).1 = .failed e → e = missing id ∧ (c.write (.remove id)).2 = c

theorem write_remove_album (c : Catalog) (n : Int) : c.write (.remove (.album n)) =
    (if c.albums.any (·.id = n) then
        .removed ((c.items.filter (·.album = some n)).map (·.track.path)) else .failed (missing (.album n)),
      { c with albums := c.albums.filter (·.id ≠ n), items := c.items.filter (·.album ≠ some n) }) := by
  by_cases hany : c.albums.any (·.id = n)
  · simp only [write, delete, if_pos hany]
  · simp only [write, delete, if_neg hany, missing]

theorem write_remove_item (c : Catalog) (n : Int) : c.write (.remove (.item n)) =
    match c.items.find? (·.id = n) with
    | some row => (.removed [row.track.path], { c with items := c.items.filter (·.id ≠ n) })
    | none => (.failed (missing (.item n)), c) := by
  simp only [write, delete]
  cases c.items.find? (·.id = n) <;> rfl

/-- The items of an album that is not there would refer to nothing: that they are deleted before the album is
missed changes nothing. -/
theorem Refers.write_absent (h : c.Refers) {n : Int} (habsent : ¬ c.Has (.album n)) :
    c.write (.remove (.album n)) = (.failed (missing (.album n)), c) := by
  have hany : c.albums.any (·.id = n) = false := by
    rw [Bool.eq_false_iff]
    intro hany
    obtain ⟨row, hrow, hid⟩ := List.any_eq_true.mp hany
    exact habsent ⟨row, hrow, of_decide_eq_true hid⟩
  have halbums : c.albums.filter (·.id ≠ n) = c.albums := by
    refine List.filter_eq_self.mpr fun row hrow => decide_eq_true fun hid => ?_
    exact habsent ⟨row, hrow, hid⟩
  have hitems : c.items.filter (·.album ≠ some n) = c.items := by
    refine List.filter_eq_self.mpr fun row hrow => decide_eq_true fun halbum => ?_
    obtain ⟨a, ha, hid⟩ := h row hrow n halbum
    exact habsent ⟨a, ha, hid⟩
  rw [write_remove_album, hany, halbums, hitems]
  rfl

theorem Sound.write_album (h : c.Sound) {l r : List AlbumRow} {row : AlbumRow}
    (halbums : c.albums = l ++ row :: r) : c.write (.remove (.album row.id)) =
      (.removed ((c.items.filter (·.album = some row.id)).map (·.track.path)),
        { c with albums := l ++ r, items := c.items.filter (·.album ≠ some row.id) }) := by
  have hany : c.albums.any (·.id = row.id) = true := by simp [halbums]
  have hsorted := h.albums
  rw [halbums] at hsorted
  have hleft : c.albums.filter (·.id ≠ row.id) = l ++ r := by
    rw [halbums]
    exact filter_id_ne hsorted
  rw [write_remove_album, hany, hleft]
  rfl

theorem Sound.write_item (h : c.Sound) {l r : List ItemRow} {row : ItemRow} (hitems : c.items = l ++ row :: r) :
    c.write (.remove (.item row.id)) = (.removed [row.track.path], { c with items := l ++ r }) := by
  have hsorted := h.items
  rw [hitems] at hsorted
  have hleft : c.items.filter (·.id ≠ row.id) = l ++ r := by
    rw [hitems]
    exact filter_id_ne hsorted
  have hfind : c.items.find? (·.id = row.id) = some row := by
    rw [← List.head?_filter, hitems, filter_id_eq hsorted]
    rfl
  rw [write_remove_item, hfind, hleft]

/-- An item that is not there is missed before anything is deleted. -/
theorem write_absent_item {n : Int} (habsent : ¬ c.Has (.item n)) :
    c.write (.remove (.item n)) = (.failed (missing (.item n)), c) := by
  have hnone : c.items.find? (·.id = n) = none := by
    refine List.find?_eq_none.mpr fun row hrow hid => ?_
    exact habsent ⟨row, hrow, of_decide_eq_true hid⟩
  rw [write_remove_item, hnone]

/-- Whether a removal takes an entry or fails. -/
theorem Sound.write_remove (h : c.Sound) (id : EntryId) :
    (c.Has id ∧ ∃ paths, (c.write (.remove id)).1 = .removed paths) ∨
      (¬ c.Has id ∧ c.write (.remove id) = (.failed (missing id), c)) := by
  by_cases hhas : c.Has id
  · left
    refine ⟨hhas, ?_⟩
    cases id with
    | album n =>
      obtain ⟨row, hrow, rfl⟩ := hhas
      obtain ⟨l, r, halbums⟩ := List.append_of_mem hrow
      exact ⟨_, by rw [h.write_album halbums]⟩
    | item n =>
      obtain ⟨row, hrow, rfl⟩ := hhas
      obtain ⟨l, r, hitems⟩ := List.append_of_mem hrow
      exact ⟨_, by rw [h.write_item hitems]⟩
  · right
    refine ⟨hhas, ?_⟩
    cases id with
    | album n => exact h.refers.write_absent hhas
    | item n => exact write_absent_item hhas

theorem Sound.removesExactly (h : c.Sound) : c.RemovesExactly where
  album _ _ _ halbums := h.write_album halbums
  item _ _ _ hitems := h.write_item hitems
  fails id := by
    obtain ⟨hhas, paths, hpaths⟩ | ⟨hmissing, hfails⟩ := h.write_remove id
    · simp [hhas, hpaths]
    · simp [hmissing, hfails]
  unchanged id e he := by
    obtain ⟨-, paths, hpaths⟩ | ⟨-, hfails⟩ := h.write_remove id
    · rw [hpaths] at he
      cases he
    · rw [hfails] at he ⊢
      exact ⟨(CatalogAnswer.failed.inj he).symm, rfl⟩

/-- Tracks with the ids of their rows, which count on from the first. -/
def numbered (first : Int) (tracks : List Track) : List (Int × Track) :=
  tracks.mapIdx fun i t => (first + i, t)

/-- Those of them that later writes do not remove. -/
def leftOf (first : Int) (tracks : List Track) (later : List CatalogWrite) : List (Int × Track) :=
  (numbered first tracks).filter fun t => .remove (.item t.1) ∉ later

/-- The row of a track. -/
def rowOf (album : Option Int) (t : Int × Track) : ItemRow := ⟨t.1, album, t.2.itemIdentity.key, t.2.kept⟩

theorem addedRows_kept (c : Catalog) (album : Option Int) (tracks : List Track) :
    c.addedRows album (tracks.map (·.kept)) = (numbered (c.lastItem + 1) tracks).map (rowOf album) := by
  refine List.ext_getElem? fun i => ?_
  simp [addedRows, numbered, rowOf, Function.comp_def]

/-- The rows of tracks that are left, where an album that they belong to is not removed as a whole. -/
theorem filter_takesItem {album : Option Int} {first : Int} {tracks : List Track} {later : List CatalogWrite}
    (halbum : ∀ n ∈ album, .remove (.album n) ∉ later) :
    ((numbered first tracks).map (rowOf album)).filter (fun row => !later.any (·.takesItem row)) =
      (leftOf first tracks later).map (rowOf album) := by
  unfold leftOf
  rw [List.filter_map]
  congr 1
  refine List.filter_congr fun t _ => ?_
  have htaken : later.any (·.takesItem (rowOf album t)) = true ↔ .remove (.item t.1) ∈ later := by
    rw [List.any_eq_true]
    constructor
    · rintro ⟨w, hw, htakes⟩
      cases w with
      | remove id =>
        cases id with
        | album n => exact (halbum n (of_decide_eq_true htakes) hw).elim
        | item n =>
          obtain rfl : t.1 = n := of_decide_eq_true htakes
          exact hw
      | add tracks => cases htakes
      | addAlbum a tracks => cases htakes
    · intro hw
      exact ⟨_, hw, decide_eq_true rfl⟩
  by_cases hmem : .remove (.item t.1) ∈ later
  · simp [htaken.mpr hmem, hmem]
  · have hnot := mt htaken.mp hmem
    simp [Bool.eq_false_iff.mpr hnot, hmem]

theorem Sound.album_le (h : c.Sound) {row : ItemRow} (hrow : row ∈ c.items) : ∀ n ∈ row.album, n ≤ c.lastAlbum := by
  intro n hn
  obtain ⟨a, ha, rfl⟩ := h.refers row hrow n hn
  exact h.albumsCounted a ha

/-- The items of an album that was added and not removed: its tracks that are left, as they were added. -/
theorem Sound.album_items (h : c.Sound) (album : NewAlbum) (tracks : List Track) {later : List CatalogWrite}
    (hleft : .remove (.album (c.lastAlbum + 1)) ∉ later) :
    (c.writeAll (.addAlbum album tracks :: later)).items.filter (·.album = some (c.lastAlbum + 1)) =
      (leftOf (c.lastItem + 1) tracks later).map (rowOf (some (c.lastAlbum + 1))) := by
  obtain ⟨newer, hitems, hids⟩ := (c.write (.addAlbum album tracks)).2.writeAll_items later
  rw [write_state] at hitems hids
  simp only [newAlbums, List.length_singleton] at hids
  have hbefore : ((c.items.filter fun row => !(CatalogWrite.addAlbum album tracks).takesItem row).filter fun row =>
      !later.any (·.takesItem row)).filter (·.album = some (c.lastAlbum + 1)) = [] := by
    refine List.filter_eq_nil_iff.mpr fun row hrow halbum => ?_
    have hmem := (List.mem_filter.mp (List.mem_filter.mp hrow).1).1
    have hle := h.album_le hmem _ (of_decide_eq_true halbum)
    omega
  have hnewer : newer.filter (·.album = some (c.lastAlbum + 1)) = [] := by
    refine List.filter_eq_nil_iff.mpr fun row hrow halbum => ?_
    have hlt := (hids row hrow).2 _ (of_decide_eq_true halbum)
    omega
  have hadded : c.newItems (.addAlbum album tracks) =
      (numbered (c.lastItem + 1) tracks).map (rowOf (some (c.lastAlbum + 1))) := addedRows_kept c _ tracks
  have hall : ∀ row ∈ (leftOf (c.lastItem + 1) tracks later).map (rowOf (some (c.lastAlbum + 1))),
      decide (row.album = some (c.lastAlbum + 1)) = true := by
    intro row hrow
    obtain ⟨t, -, rfl⟩ := List.mem_map.mp hrow
    exact decide_eq_true rfl
  rw [writeAll_cons, write_state, hitems, List.filter_append, List.filter_append, List.filter_append, hbefore,
    hnewer, hadded, filter_takesItem (by simpa using hleft), List.filter_eq_self.mpr hall]
  simp

/-- An album that was added and not removed tells the paths of its tracks that are left, in the order in which they
were added. -/
def RemovesInOrder (c : Catalog) (log : List CatalogWrite) : Prop :=
  ∀ before album tracks later, log = before ++ .addAlbum album tracks :: later →
    .remove (.album ((written before).lastAlbum + 1)) ∉ later →
      (c.write (.remove (.album ((written before).lastAlbum + 1)))).1 =
        .removed ((leftOf ((written before).lastItem + 1) tracks later).map (·.2.path))

/-- The row of an album stays until it is removed. -/
theorem album_stays (c : Catalog) (album : NewAlbum) (tracks : List Track) {later : List CatalogWrite}
    (hleft : .remove (.album (c.lastAlbum + 1)) ∉ later) :
    (⟨c.lastAlbum + 1, album.kept, album.identity.key⟩ : AlbumRow) ∈
      (c.writeAll (.addAlbum album tracks :: later)).albums := by
  obtain ⟨newer, halbums, -⟩ := (c.write (.addAlbum album tracks)).2.writeAll_albums later
  rw [writeAll_cons, halbums, write_state]
  refine List.mem_append_left _ (List.mem_filter.mpr ⟨List.mem_append_right _ (List.mem_singleton.mpr rfl), ?_⟩)
  rw [Bool.not_eq_true', Bool.eq_false_iff]
  intro hany
  obtain ⟨w, hw, htakes⟩ := List.any_eq_true.mp hany
  cases w with
  | remove id => exact hleft (of_decide_eq_true htakes ▸ hw)
  | add tracks => cases htakes
  | addAlbum a tracks => cases htakes

theorem removesInOrder_written (log : List CatalogWrite) : (written log).RemovesInOrder log := by
  rintro before album tracks later rfl hleft
  have hitems := (sound_written before).album_items album tracks hleft
  have hrow := album_stays (written before) album tracks hleft
  rw [← written_append] at hitems hrow
  obtain ⟨l, r, hsplit⟩ := List.append_of_mem hrow
  have hremoved := (sound_written (before ++ .addAlbum album tracks :: later)).write_album hsplit
  rw [hremoved]
  simp only
  rw [hitems, List.map_map]
  rfl

/-- An id of one catalog is in the other the id of the same row, if there is one at all. -/
def KeepsIds (c c' : Catalog) : Prop :=
  (∀ row ∈ c.items, ∀ other ∈ c'.items, other.id = row.id → other = row) ∧
    ∀ row ∈ c.albums, ∀ other ∈ c'.albums, other.id = row.id → other = row

theorem Sound.keepsIds (h : c.Sound) (ws : List CatalogWrite) : c.KeepsIds (c.writeAll ws) := by
  constructor
  · intro row hrow other hother hid
    obtain ⟨newer, hitems, hids⟩ := c.writeAll_items ws
    rw [hitems] at hother
    rcases List.mem_append.mp hother with hother | hother
    · exact eq_of_id_eq h.items (List.mem_filter.mp hother).1 hrow hid
    · have hnew := (hids other hother).1
      have hold := h.counted row hrow
      omega
  · intro row hrow other hother hid
    obtain ⟨newer, halbums, hids⟩ := c.writeAll_albums ws
    rw [halbums] at hother
    rcases List.mem_append.mp hother with hother | hother
    · exact eq_of_id_eq h.albums (List.mem_filter.mp hother).1 hrow hid
    · have hnew := hids other hother
      have hold := h.albumsCounted row hrow
      omega

end Catalog

/-- At every moment of every history of transactions: items of albums refer to albums that are there; a removal
takes exactly its entry, with the paths of an album in the order in which they were added, or there is no such
entry and nothing changes; a transaction that is not committed leaves the rows as they were; and the id of a row
that was committed is given to no other row. -/
theorem history_sound (history : List Transaction) (ws : List CatalogWrite) :
    let s := CatalogStore.during history ws
    s.rows.Refers ∧ s.transaction.Refers ∧ s.transaction.RemovesExactly ∧
      s.transaction.RemovesInOrder (committedWrites history ++ ws) ∧
      (∀ ending, ending ≠ .commit →
        (CatalogStore.after (history ++ [⟨ws, ending⟩])).rows = (CatalogStore.after history).rows) ∧
      ∀ past future, history = past ++ future → (CatalogStore.after past).rows.KeepsIds s.transaction := by
  have hsound := Catalog.sound_written (committedWrites history ++ ws)
  intro s
  have hrows : s.rows = Catalog.written (committedWrites history) := by
    rw [CatalogStore.during_rows, CatalogStore.after_rows]
  have htransaction : s.transaction = Catalog.written (committedWrites history ++ ws) :=
    CatalogStore.during_transaction history ws
  rw [hrows, htransaction]
  refine ⟨(Catalog.sound_written _).refers, hsound.refers, hsound.removesExactly,
    Catalog.removesInOrder_written _, fun ending hending => ?_, ?_⟩
  · have hnone : committedWrites [⟨ws, ending⟩] = [] := by simp [committedWrites, hending]
    rw [CatalogStore.after_rows, CatalogStore.after_rows, committedWrites_append, hnone, List.append_nil]
  · rintro past future rfl
    rw [CatalogStore.after_rows, committedWrites_append, List.append_assoc, Catalog.written_append]
    exact (Catalog.sound_written _).keepsIds _

/-- An album of two tracks whose first one is removed in a transaction that is rolled back, and then in one that is
still open. -/
theorem history_sound_album :
    let track (path : String) : Track := { path := ⟨path⟩ }
    let added : List CatalogWrite := [.addAlbum ⟨"A", "B", none, none, none⟩ [track "/lib/1", track "/lib/2"]]
    let removed : List CatalogWrite := [.remove (.item 1)]
    let s := CatalogStore.during [⟨added, .commit⟩, ⟨removed, .rollback⟩] removed
    (s.transaction.write (.remove (.album 1))).1 = .removed [⟨"/lib/2"⟩] ∧
      (s.transaction.write (.remove (.item 1))).1 = .failed (.notFound "Item" "1") ∧
      (CatalogStore.after [⟨added, .commit⟩, ⟨removed, .rollback⟩]).rows =
        (CatalogStore.after [⟨added, .commit⟩]).rows ∧
      (CatalogStore.after [⟨added, .commit⟩]).rows.KeepsIds s.transaction := by
  intro track added removed s
  obtain ⟨-, -, hremoves, horder, -, hids⟩ :=
    history_sound [⟨added, .commit⟩, ⟨removed, .rollback⟩] removed
  obtain ⟨-, -, -, -, hrows, -⟩ := history_sound [⟨added, .commit⟩] removed
  refine ⟨horder [] _ _ removed rfl (by decide), (hremoves.fails (.item 1)).mpr ?_, hrows .rollback (by decide),
    hids [⟨added, .commit⟩] _ rfl⟩
  rintro ⟨row, hrow, hid⟩
  revert row
  decide

end MusicImport
