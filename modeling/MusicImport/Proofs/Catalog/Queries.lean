import Mathlib.Data.Prod.Lex
import Mathlib.Order.WithBot
import MusicImport.Proofs.Catalog.History
import MusicImport.Proofs.Sorting

/-! What a catalog tells of what was added to it. Tracks come back as they were, without their fingerprints; an album
has them by disc and track number; an entry is found under the identities with its key, as long as it is there; and
the paths in a directory are those that go on behind it. -/
namespace MusicImport

/-- The place of a number: absent ones come first. -/
def numberKey : Option ℕ → WithBot ℕ
  | some n => WithBot.some n
  | none => ⊥

/-- The place of a track on its album: its disc, then its number on it. -/
def Track.albumPlace (t : Track) : WithBot ℕ ×ₗ WithBot ℕ := toLex (numberKey t.discNumber, numberKey t.trackNumber)

/-- Tracks by their places on the album, and at one place in the order in which they were added. -/
structure ByPlace (added ordered : List Track) : Prop where
  perm : ordered.Perm added
  sorted : ordered.Pairwise fun a b => a.albumPlace ≤ b.albumPlace
  stable : ∀ place, (ordered.filter fun t => t.albumPlace = place) = added.filter fun t => t.albumPlace = place

/-- The number of a row. -/
def EntryId.row : EntryId → Int
  | .album n => n
  | .item n => n

/-- The kind of an identity shows at the start of its key. -/
theorem Identity.isAlbum_of_key {i j : Identity} (h : i.key = j.key) : i.isAlbum = j.isAlbum := by
  have hhead := congrArg (fun s => s.toList.head?) h
  cases i <;> cases j <;> simp [Identity.key, Identity.isAlbum, String.toList_append] at hhead ⊢

namespace Catalog

variable {c : Catalog}

theorem numberKey_inj {a b : Option ℕ} : numberKey a = numberKey b ↔ a = b := by
  cases a <;> cases b <;> simp [numberKey]

theorem compareNumbers_lt {a b : Option ℕ} : compareNumbers a b = .lt ↔ numberKey a < numberKey b := by
  cases a <;> cases b <;> simp [compareNumbers, numberKey, Nat.compare_eq_lt]

theorem compareNumbers_eq {a b : Option ℕ} : compareNumbers a b = .eq ↔ numberKey a = numberKey b := by
  rw [numberKey_inj]
  cases a <;> cases b <;> simp [compareNumbers]

/-- What the items of an album are sorted by. -/
def itemKey (row : ItemRow) : (WithBot ℕ ×ₗ WithBot ℕ) ×ₗ ℤ := toLex (row.track.albumPlace, row.id)

theorem compareItems_iff (a b : ItemRow) : compareItems a b ≠ .gt ↔ itemKey a ≤ itemKey b := by
  unfold compareItems itemKey Track.albumPlace
  rw [Ordering.then_assoc, Sorting.then_ne_gt, Sorting.then_ne_gt, Prod.Lex.toLex_le_toLex,
    Prod.Lex.toLex_lt_toLex, toLex_inj, Prod.mk.injEq, compareNumbers_lt, compareNumbers_lt, compareNumbers_eq,
    compareNumbers_eq, Int.compare_ne_gt]
  tauto

theorem albumItems_eq (c : Catalog) (n : Int) : c.albumItems n =
    ((c.items.filter (·.album = some n)).mergeSort fun a b => decide (itemKey a ≤ itemKey b)).map (·.track) := by
  have hle : (fun a b : ItemRow => compareItems a b != .gt) = fun a b => decide (itemKey a ≤ itemKey b) := by
    funext a b
    rw [Bool.eq_iff_iff, bne_iff_ne, decide_eq_true_iff, compareItems_iff]
  rw [albumItems, hle]

/-- Rows in order of their ids tell the tracks of an album by their places. -/
theorem Sound.albumItems_byPlace (h : c.Sound) (n : Int) :
    ByPlace ((c.items.filter (·.album = some n)).map (·.track)) (c.albumItems n) := by
  have hids : (c.items.filter (·.album = some n)).Pairwise fun a b => a.id < b.id := h.items.filter _
  rw [albumItems_eq]
  constructor
  · exact (List.mergeSort_perm _ _).map _
  · refine List.pairwise_map.mpr ((Sorting.pairwise_mergeSort itemKey _).imp fun {a b} hle => ?_)
    rcases Prod.Lex.toLex_le_toLex.mp hle with hlt | ⟨heq, -⟩
    · exact hlt.le
    · exact heq.le
  · intro place
    rw [List.filter_map, List.filter_map]
    congr 1
    apply Sorting.filter_mergeSort_of_pairwise
    -- at one place the ids decide, and they ascend
    refine (hids.filter _).imp_of_mem fun {a b} ha hb hlt => ?_
    have hplace {x : ItemRow} (hx : x ∈ (c.items.filter (·.album = some n)).filter
        ((fun t : Track => decide (t.albumPlace = place)) ∘ ItemRow.track)) : x.track.albumPlace = place :=
      of_decide_eq_true (List.mem_filter.mp hx).2
    exact Prod.Lex.toLex_le_toLex.mpr (.inr ⟨(hplace ha).trans (hplace hb).symm, hlt.le⟩)

theorem Sound.item?_eq (h : c.Sound) {row : ItemRow} (hrow : row ∈ c.items) : c.item? row.id = some row.track := by
  obtain ⟨l, r, hitems⟩ := List.append_of_mem hrow
  have hsorted := h.items
  rw [hitems] at hsorted
  rw [item?, ← List.head?_filter, hitems, filter_id_eq hsorted]
  rfl

/-- How an album is told. -/
def albumEntry (c : Catalog) (row : AlbumRow) : CatalogEntry :=
  { id := .album row.id, artist := row.album.albumArtist, title := row.album.album
    year := row.album.year, paths := (c.albumItems row.id).map (·.path) }

/-- How a single item is told. -/
def itemEntry (row : ItemRow) : CatalogEntry :=
  { id := .item row.id, artist := row.track.artist.getD "", title := row.track.title.getD ""
    year := row.track.year, paths := [row.track.path] }

theorem findDuplicates_album (c : Catalog) {identity : Identity} (h : identity.isAlbum = true) :
    c.findDuplicates identity = (c.albums.filter (·.identityKey = identity.key)).map c.albumEntry := if_pos h

theorem findDuplicates_item (c : Catalog) {identity : Identity} (h : identity.isAlbum = false) :
    c.findDuplicates identity = (c.items.filter fun row =>
      row.identityKey = identity.key && row.album.isNone).map itemEntry := if_neg (by simp [h])

/-- What is found is told in order of the rows. -/
theorem Sound.findDuplicates_pairwise (h : c.Sound) (identity : Identity) :
    (c.findDuplicates identity).Pairwise fun a b => a.id.row < b.id.row := by
  cases hkind : identity.isAlbum with
  | true =>
    rw [findDuplicates_album c hkind]
    exact List.pairwise_map.mpr (h.albums.filter _)
  | false =>
    rw [findDuplicates_item c hkind]
    exact List.pairwise_map.mpr (h.items.filter _)

/-- An album is found once under the identities with its key, and under no other. -/
theorem Sound.found_album (h : c.Sound) {row : AlbumRow} (hrow : row ∈ c.albums) (own : Identity)
    (hown : own.isAlbum = true) (hkey : row.identityKey = own.key) (identity : Identity) :
    (c.findDuplicates identity).filter (·.id = .album row.id) =
      if identity.key = own.key then [c.albumEntry row] else [] := by
  obtain ⟨l, r, halbums⟩ := List.append_of_mem hrow
  have hsorted := h.albums
  rw [halbums] at hsorted
  cases hkind : identity.isAlbum with
  | true =>
    rw [findDuplicates_album c hkind, List.filter_map, List.filter_filter]
    have hswap : (c.albums.filter fun a => ((fun e : CatalogEntry => decide (e.id = .album row.id)) ∘ c.albumEntry) a &&
        decide (a.identityKey = identity.key)) =
        (c.albums.filter (·.id = row.id)).filter (·.identityKey = identity.key) := by
      rw [List.filter_filter]
      refine List.filter_congr fun a _ => ?_
      simp [albumEntry, Bool.and_comm]
    rw [hswap, halbums, filter_id_eq hsorted]
    by_cases heq : identity.key = own.key
    · simp [hkey, heq]
    · simp [hkey, heq, Ne.symm heq]
  | false =>
    have hne : identity.key ≠ own.key := mt Identity.isAlbum_of_key (by simp [hkind, hown])
    rw [findDuplicates_item c hkind, if_neg hne, List.filter_map, List.map_eq_nil_iff, List.filter_eq_nil_iff]
    intro a _
    simp [itemEntry]

/-- A single item is found once under the identities with its key, and under no other. An item of an album is not
found. -/
theorem Sound.found_item (h : c.Sound) {row : ItemRow} (hrow : row ∈ c.items) (own : Identity)
    (hown : own.isAlbum = false) (hkey : row.identityKey = own.key) (identity : Identity) :
    (c.findDuplicates identity).filter (·.id = .item row.id) =
      if identity.key = own.key ∧ row.album = none then [itemEntry row] else [] := by
  obtain ⟨l, r, hitems⟩ := List.append_of_mem hrow
  have hsorted := h.items
  rw [hitems] at hsorted
  cases hkind : identity.isAlbum with
  | true =>
    have hne : identity.key ≠ own.key := mt Identity.isAlbum_of_key (by simp [hkind, hown])
    rw [findDuplicates_album c hkind, if_neg fun hand => hne hand.1, List.filter_map, List.map_eq_nil_iff,
      List.filter_eq_nil_iff]
    intro a _
    simp [albumEntry]
  | false =>
    rw [findDuplicates_item c hkind, List.filter_map, List.filter_filter]
    have hswap : (c.items.filter fun a => ((fun e : CatalogEntry => decide (e.id = .item row.id)) ∘ itemEntry) a &&
        (decide (a.identityKey = identity.key) && a.album.isNone)) =
        (c.items.filter (·.id = row.id)).filter fun a => a.identityKey = identity.key && a.album.isNone := by
      rw [List.filter_filter]
      refine List.filter_congr fun a _ => ?_
      simp [itemEntry, Bool.and_comm]
    rw [hswap, hitems, filter_id_eq hsorted]
    by_cases heq : identity.key = own.key
    · cases halbum : row.album <;> simp [hkey, heq, halbum]
    · simp [hkey, heq, Ne.symm heq]

theorem pathsUnder_perm (c : Catalog) (dir : FilePath) : (c.pathsUnder dir).Perm
    (c.paths.filter fun p => (directoryStart dir).isPrefixOf p.text.toList) := List.mergeSort_perm _ _

theorem pathsUnder_pairwise (c : Catalog) (dir : FilePath) :
    (c.pathsUnder dir).Pairwise fun p q => p.text ≤ q.text := by
  have htrans (a b d : FilePath) (hab : decide (a.text ≤ b.text) = true) (hbd : decide (b.text ≤ d.text) = true) :
      decide (a.text ≤ d.text) = true :=
    decide_eq_true (String.le_trans (of_decide_eq_true hab) (of_decide_eq_true hbd))
  have htotal (a b : FilePath) : (decide (a.text ≤ b.text) || decide (b.text ≤ a.text)) = true := by
    simpa using String.le_total a.text b.text
  exact (List.pairwise_mergeSort htrans htotal _).imp of_decide_eq_true

/-- What a catalog tells of a single item that was added. -/
structure TellsItem (c : Catalog) (n : Int) (t : Track) : Prop where
  item : c.item? n = some (stored t)
  found : ∀ identity : Identity, (c.findDuplicates identity).filter (·.id = .item n) =
    if identity.key = t.itemIdentity.key then
      [{ id := .item n, artist := t.artist.getD "", title := t.title.getD "", year := t.year, paths := [t.path] }]
    else []
  path : t.path ∈ c.paths

/-- What a catalog tells of an album that was added, as far as its tracks are left. -/
structure TellsAlbum (c : Catalog) (n : Int) (album : NewAlbum) (left : List (Int × Track)) : Prop where
  tracks : ByPlace (left.map fun t => stored t.2) (c.albumItems n)
  items : ∀ t ∈ left, c.item? t.1 = some (stored t.2)
  found : ∀ identity : Identity, (c.findDuplicates identity).filter (·.id = .album n) =
    if identity.key = album.identity.key then
      [{ id := .album n, artist := album.albumArtist, title := album.album, year := album.year
         paths := (c.albumItems n).map (·.path) }]
    else []
  single : ∀ t ∈ left, ∀ identity, ∀ e ∈ c.findDuplicates identity, e.id ≠ .item t.1
  paths : ∀ t ∈ left, t.2.path ∈ c.paths

/-- What a catalog tells of a write that was answered, until later writes remove what it added. The items that it added
are numbered from the first. -/
def Tells (c : Catalog) (first : Int) (later : List CatalogWrite) : CatalogWrite → CatalogAnswer → Prop
  | .add tracks, .items ids =>
    ids = (numbered first tracks).map (·.1) ∧ ∀ t ∈ leftOf first tracks later, c.TellsItem t.1 t.2
  | .addAlbum album tracks, .album n =>
    .remove (.album n) ∉ later → c.TellsAlbum n album (leftOf first tracks later)
  | .remove _, _ => True
  | _, _ => False

/-- New rows of items stay until they are removed. -/
theorem newItems_stay (c : Catalog) (w : CatalogWrite) (later : List CatalogWrite) :
    ((c.newItems w).filter fun row => !later.any (·.takesItem row)) ⊆ (c.writeAll (w :: later)).items := by
  obtain ⟨newer, hitems, -⟩ := (c.write w).2.writeAll_items later
  rw [write_state] at hitems
  rw [writeAll_cons, write_state, hitems, List.filter_append]
  exact fun row hrow => List.mem_append_left _ (List.mem_append_right _ hrow)

theorem mem_tracks_of_left {first : Int} {tracks : List Track} {later : List CatalogWrite} {t : Int × Track}
    (h : t ∈ leftOf first tracks later) : t.2 ∈ tracks := by
  obtain ⟨i, hi, rfl⟩ := List.mem_mapIdx.mp (List.mem_filter.mp h).1
  exact List.getElem_mem hi

theorem Sound.tells_add (h : c.Sound) {tracks : List Track} (hfits : ∀ t ∈ tracks, t.Fits)
    (later : List CatalogWrite) :
    (c.writeAll (.add tracks :: later)).Tells (c.lastItem + 1) later (.add tracks) (c.write (.add tracks)).1 := by
  have hsound := h.writeAll (.add tracks :: later)
  constructor
  · refine List.ext_getElem? fun i => ?_
    simp [numbered, Function.comp_def]
  · intro t ht
    have hstored := Track.kept_eq (hfits t.2 (mem_tracks_of_left ht))
    have hrow : rowOf none t ∈ (c.writeAll (.add tracks :: later)).items := by
      apply newItems_stay
      show _ ∈ List.filter _ (c.addedRows none (tracks.map (·.kept)))
      rw [addedRows_kept, filter_takesItem (by simp)]
      exact List.mem_map_of_mem ht
    constructor
    · rw [← hstored]
      exact hsound.item?_eq hrow
    · intro identity
      have hentry : itemEntry (rowOf none t) = ⟨.item t.1, t.2.artist.getD "", t.2.title.getD "", t.2.year,
          [t.2.path]⟩ := by
        unfold itemEntry rowOf
        rw [hstored]
        rfl
      have hsingle : (rowOf none t).album = none := rfl
      have hfound := hsound.found_item hrow t.2.itemIdentity rfl rfl identity
      simp only [hentry, hsingle, and_true] at hfound
      exact hfound
    · exact List.mem_map_of_mem (f := fun row : ItemRow => row.track.path) hrow

theorem Sound.tells_addAlbum (h : c.Sound) {album : NewAlbum} {tracks : List Track} (hyear : YearFits album.year)
    (hfits : ∀ t ∈ tracks, t.Fits) (later : List CatalogWrite) :
    (c.writeAll (.addAlbum album tracks :: later)).Tells (c.lastItem + 1) later (.addAlbum album tracks)
      (c.write (.addAlbum album tracks)).1 := by
  have hsound := h.writeAll (.addAlbum album tracks :: later)
  intro hleft
  have hitems := h.album_items album tracks hleft
  have hstored : ∀ t ∈ leftOf (c.lastItem + 1) tracks later, t.2.kept = stored t.2 :=
    fun t ht => Track.kept_eq (hfits t.2 (mem_tracks_of_left ht))
  have hrows : ∀ t ∈ leftOf (c.lastItem + 1) tracks later,
      rowOf (some (c.lastAlbum + 1)) t ∈ (c.writeAll (.addAlbum album tracks :: later)).items := by
    intro t ht
    have hmem := List.mem_map_of_mem (f := rowOf (some (c.lastAlbum + 1))) ht
    rw [← hitems] at hmem
    exact (List.mem_filter.mp hmem).1
  constructor
  · have htracks : (leftOf (c.lastItem + 1) tracks later).map (fun t => stored t.2) =
        ((c.writeAll (.addAlbum album tracks :: later)).items.filter
          (·.album = some (c.lastAlbum + 1))).map (·.track) := by
      rw [hitems, List.map_map]
      exact List.map_congr_left fun t ht => (hstored t ht).symm
    rw [htracks]
    exact hsound.albumItems_byPlace (c.lastAlbum + 1)
  · intro t ht
    rw [← hstored t ht]
    exact hsound.item?_eq (hrows t ht)
  · intro identity
    have hfound := hsound.found_album (album_stays c album tracks hleft) album.identity rfl rfl identity
    unfold albumEntry at hfound
    rw [NewAlbum.kept_eq hyear] at hfound
    exact hfound
  · intro t ht identity e he hid
    have hfound := hsound.found_item (hrows t ht) t.2.itemIdentity rfl rfl identity
    rw [if_neg (fun hand => by cases hand.2), List.filter_eq_nil_iff] at hfound
    exact hfound e he (decide_eq_true hid)
  · exact fun t ht => List.mem_map_of_mem (f := fun row : ItemRow => row.track.path) (hrows t ht)

end Catalog

/-- All that a write adds fits its columns. -/
def CatalogWrite.Fits : CatalogWrite → Prop
  | .add tracks => ∀ t ∈ tracks, t.Fits
  | .addAlbum album tracks => YearFits album.year ∧ ∀ t ∈ tracks, t.Fits
  | .remove _ => True

/-- After any history, what was added in a committed transaction is told as it was until it is removed: the tracks of
an album by their places and without their fingerprints, and every entry under exactly the identities with its key,
in order of the rows. The paths told of a directory are those of items that go on behind it and a slash, in order. -/
theorem committed_told (past future : List Transaction) (ws ws' : List CatalogWrite) {w : CatalogWrite}
    (hfits : w.Fits) :
    let s := CatalogStore.during past ws
    let c := (CatalogStore.after (past ++ ⟨ws ++ w :: ws', .commit⟩ :: future)).rows
    c.Tells (s.transaction.lastItem + 1) (ws' ++ committedWrites future) w (s.write w).1 ∧
      (∀ identity, (c.findDuplicates identity).Pairwise fun a b => a.id.row < b.id.row) ∧
      ∀ dir, (c.pathsUnder dir).Perm (c.paths.filter fun p =>
          (Text.dropEndWhile (· == '/') dir.text.toList ++ ['/']).isPrefixOf p.text.toList) ∧
        (c.pathsUnder dir).Pairwise fun p q => p.text ≤ q.text := by
  intro s c
  have htransaction : s.transaction = Catalog.written (committedWrites past ++ ws) :=
    CatalogStore.during_transaction past ws
  have hlog : committedWrites (past ++ ⟨ws ++ w :: ws', .commit⟩ :: future) =
      (committedWrites past ++ ws) ++ w :: (ws' ++ committedWrites future) := by
    rw [committedWrites_append]
    simp [committedWrites]
  have hrows : c = s.transaction.writeAll (w :: (ws' ++ committedWrites future)) := by
    show (CatalogStore.after _).rows = _
    rw [CatalogStore.after_rows, hlog, Catalog.written_append, htransaction]
  have hbefore : s.transaction.Sound := htransaction ▸ Catalog.sound_written _
  have hsound : c.Sound := hrows ▸ hbefore.writeAll _
  refine ⟨?_, hsound.findDuplicates_pairwise, fun dir => ⟨c.pathsUnder_perm dir, c.pathsUnder_pairwise dir⟩⟩
  have hanswer : (s.write w).1 = (s.transaction.write w).1 := rfl
  rw [hrows, hanswer]
  cases w with
  | add tracks => exact hbefore.tells_add hfits _
  | addAlbum album tracks => exact hbefore.tells_addAlbum hfits.1 hfits.2 _
  | remove id =>
    unfold Catalog.Tells
    trivial

/-- The largest numbers come back too, and of an album whose first track was removed the second one is told. -/
theorem committed_told_album :
    let t : Track := { path := ⟨"/lib/2"⟩, trackNumber := some (2 ^ 32 - 1), length := some (2 ^ 64 - 1)
                       fingerprint := some "f" }
    let album : NewAlbum := { albumArtist := "A", album := "B", year := some (-2 ^ 31) }
    let w : CatalogWrite := .addAlbum album [{ path := ⟨"/lib/1"⟩ }, t]
    w.Fits ∧ (CatalogStore.after [⟨[w, .remove (.item 1)], .commit⟩, ⟨[.remove (.album 1)], .rollback⟩]).rows.TellsAlbum
      1 album [(2, t)] := by
  intro t album w
  have hfits : w.Fits := ⟨by decide, by decide⟩
  refine ⟨hfits, ?_⟩
  obtain ⟨htold, -, -⟩ := committed_told [] [⟨[.remove (.album 1)], .rollback⟩] [] [.remove (.item 1)] hfits
  exact htold (by decide)

end MusicImport
