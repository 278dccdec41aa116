import MusicImport.Proofs.Catalog.Rows
import MusicImport.Proofs.Session.Restoring

/-! What a task asks of the catalog and what its commit leaves there: the rows of the entries that it
replaces go, those of its tracks come, and every other row stays. -/
namespace MusicImport
namespace Session

open Catalog

variable {s s' u : Session} {env : Environment} {t : Task} {paths claimed : List FilePath}
  {tx tx' : Catalog}

theorem pathsUnderAll_ok {dirs : List FilePath}
    (h : s.trying (pathsUnderAll env dirs) = (.ok paths, s')) :
    paths = dirs.flatMap s.catalog.pathsUnder := by
  induction dirs generalizing s s' paths with
  | nil =>
    simp only [pathsUnderAll, trying_pure, Prod.mk.injEq, Except.ok.injEq] at h
    exact h.1.symm
  | cons dir rest ih =>
    obtain ⟨first, u, hfirst, h⟩ := trying_bind_ok.mp h
    obtain ⟨more, v, hmore, h⟩ := trying_bind_ok.mp h
    simp only [trying_pure, Prod.mk.injEq, Except.ok.injEq] at h
    have hu := (pathsUnder_consults env dir).result hfirst
    obtain ⟨_, w, hattempt, hfirst⟩ := trying_bind_ok.mp hfirst
    have hw := (attempt_consults env .pathsUnder).result hattempt
    simp only [trying_bind, trying_get, trying_pure, Prod.mk.injEq, Except.ok.injEq] at hfirst
    rw [← h.1, ← hfirst.1, hw.catalog, ih hmore, hu.catalog, List.flatMap_cons]

theorem entryTracks_ok {id : EntryId} {tracks : List Track}
    (h : s.trying (entryTracks env id) = (.ok tracks, s')) : tracks = s.catalog.tracksOf id := by
  cases id with
  | album id =>
    obtain ⟨_, u, hattempt, h⟩ := trying_bind_ok.mp h
    have hu := (attempt_consults env .albumItems).result hattempt
    simp only [trying_bind, trying_get, trying_pure, Prod.mk.injEq, Except.ok.injEq] at h
    rw [← h.1, hu.catalog]
    rfl
  | item id =>
    obtain ⟨_, u, hattempt, h⟩ := trying_bind_ok.mp h
    have hu := (attempt_consults env .item).result hattempt
    simp only [trying_bind, trying_get, trying_pure, Prod.mk.injEq, Except.ok.injEq] at h
    rw [← h.1, hu.catalog]
    rfl

theorem entryPaths_ok {ids : List EntryId} (h : s.trying (entryPaths env ids) = (.ok paths, s')) :
    paths = ids.flatMap fun id => (s.catalog.tracksOf id).map (·.path) := by
  induction ids generalizing s s' paths with
  | nil =>
    simp only [entryPaths, trying_pure, Prod.mk.injEq, Except.ok.injEq] at h
    exact h.1.symm
  | cons id rest ih =>
    obtain ⟨tracks, u, htracks, h⟩ := trying_bind_ok.mp h
    obtain ⟨more, v, hmore, h⟩ := trying_bind_ok.mp h
    simp only [trying_pure, Prod.mk.injEq, Except.ok.injEq] at h
    have hu := (entryTracks_consults env id).result htracks
    rw [← h.1, entryTracks_ok htracks, ih hmore, hu.catalog, List.flatMap_cons]

/-- The files of the entries that a task replaces. -/
def freedPaths (t : Task) (c : Catalog) : List FilePath :=
  t.replaces.flatMap fun id => (c.tracksOf id).map (·.path)

/-- The files of the catalog in the directories of some destinations. -/
def listedPaths (c : Catalog) (dests : List FilePath) : List FilePath :=
  (distinctDirectories dests).flatMap c.pathsUnder

theorem claimedPaths_ok {dests : List FilePath}
    (h : s.trying (claimedPaths env t dests) = (.ok claimed, s')) :
    claimed = (listedPaths s.catalog dests).filter fun p => !isClaimed (freedPaths t s.catalog) p := by
  obtain ⟨owned, u, howned, h⟩ := trying_bind_ok.mp h
  obtain ⟨freed, v, hfreed, h⟩ := trying_bind_ok.mp h
  simp only [trying_pure, Prod.mk.injEq, Except.ok.injEq] at h
  have hu := (pathsUnderAll_consults env _).result howned
  rw [← h.1, pathsUnderAll_ok howned, entryPaths_ok hfreed, hu.catalog]
  rfl

/-- What transfers may not share: listed files that are not freed. -/
theorem transferClaims_ok {dests : List FilePath}
    (h : s.trying (transferClaims env t dests) = (.ok claimed, s')) :
    env.config.fileStrategy = .reference ∨
      claimed = (listedPaths s.catalog dests).filter fun p => !isClaimed (freedPaths t s.catalog) p := by
  unfold transferClaims at h
  split at h
  next href => exact .inl href
  · exact .inr (claimedPaths_ok (trying_adapt_ok.mp h))

/-- A file is freed only if its row goes. -/
theorem owned_of_freed {c : Catalog} {p : FilePath} (h : p ∈ freedPaths t c) :
    ∃ row ∈ c.items, t.replaces.any (·.owns row) ∧ row.track.path = p := by
  obtain ⟨id, hid, hp⟩ := List.mem_flatMap.mp h
  obtain ⟨track, htrack, rfl⟩ := List.mem_map.mp hp
  obtain ⟨row, hrow, howns, rfl⟩ := mem_tracksOf htrack
  exact ⟨row, hrow, List.any_eq_true.mpr ⟨id, hid, howns⟩, rfl⟩

theorem removeAll_ok {ids : List EntryId}
    (h : s.trying (removeAll env tx ids) = (.ok (paths, tx'), s')) :
    tx.Removes ids tx' ∧ paths = tx.removedPaths ids := by
  induction ids generalizing s s' tx tx' paths with
  | nil =>
    simp only [removeAll, trying_pure, Prod.mk.injEq, Except.ok.injEq] at h
    rw [← h.1.1, ← h.1.2]
    exact ⟨.nil tx, rfl⟩
  | cons id rest ih =>
    obtain ⟨⟨removed, next⟩, u, hremove, h⟩ := trying_bind_ok.mp h
    obtain ⟨⟨more, last⟩, v, hmore, h⟩ := trying_bind_ok.mp h
    simp only [trying_pure, Prod.mk.injEq, Except.ok.injEq] at h
    obtain ⟨_, w, -, hremove⟩ := trying_bind_ok.mp hremove
    simp only [trying_except, Prod.mk.injEq] at hremove
    obtain ⟨hremoves, rfl⟩ := ih hmore
    rw [← h.1.1, ← h.1.2, removedPaths, hremove.1]
    exact ⟨.cons hremove.1 hremoves, rfl⟩

/-- What a commit leaves in the catalog: rows in the place of the entries that a task replaces, and the entries
that these rows make up, an album of its own or each row alone. -/
structure Wrote (t : Task) (c : Catalog) (entries : List EntryId) (rows : List ItemRow) (c' : Catalog) : Prop where
  items : c'.items = c.without t.replaces ++ rows
  album : t.isAlbum = true → ∃ row : AlbumRow, entries = [.album row.id] ∧ (∀ r ∈ rows, r.album = some row.id) ∧
    c'.albums = (c.albums.filter fun a => .album a.id ∉ t.replaces) ++ [row]
  single : t.isAlbum = false → entries = rows.map (EntryId.item ·.id) ∧ (∀ r ∈ rows, r.album = none) ∧
    c'.albums = c.albums.filter fun a => .album a.id ∉ t.replaces

/-- The rows that are written in place of the entries that a task replaces: those of an album, or one for
each track alone. -/
theorem writeRows_ok {choice : Chosen} {placed : List Track} {ids : List EntryId}
    (h : s.trying (writeRows env tx t choice placed) = (.ok (ids, tx'), s')) :
    ∃ left, tx.Removes t.replaces left ∧ (ids, tx') =
      if t.isAlbum then
        let added := left.addAlbum (t.albumRow choice) placed
        ([.album added.1], added.2)
      else ((left.add placed).1.map .item, (left.add placed).2) := by
  obtain ⟨⟨removed, left⟩, u, hremove, h⟩ := trying_bind_ok.mp h
  refine ⟨left, (removeAll_ok hremove).1, ?_⟩
  dsimp only at h
  split at h
  next halbum =>
    obtain ⟨⟨id, rows⟩, v, hadd, h⟩ := trying_bind_ok.mp h
    obtain ⟨_, w, -, hadd⟩ := trying_bind_ok.mp hadd
    simp only [trying_pure, Prod.mk.injEq, Except.ok.injEq] at h hadd
    obtain ⟨⟨rfl, rfl⟩, -⟩ := h
    rw [if_pos halbum, hadd.1]
  next hsingle =>
    obtain ⟨⟨added, rows⟩, v, hadd, h⟩ := trying_bind_ok.mp h
    obtain ⟨_, w, -, hadd⟩ := trying_bind_ok.mp hadd
    simp only [trying_pure, Prod.mk.injEq, Except.ok.injEq] at h hadd
    obtain ⟨⟨rfl, rfl⟩, -⟩ := h
    rw [if_neg hsingle, hadd.1]

/-- The files of the rows that stay when entries are replaced. -/
def keptPaths (t : Task) (c : Catalog) : List FilePath := (c.without t.replaces).map (·.track.path)

theorem kept_sublist (t : Task) (c : Catalog) : (keptPaths t c).Sublist c.paths := List.filter_sublist.map _

/-- The file of a row that stays is that of none that goes. -/
theorem not_freed_of_kept {c : Catalog} {p : FilePath} (hdistinct : c.PathsDistinct)
    (hp : p ∈ keptPaths t c) : isClaimed (freedPaths t c) p = false := by
  apply List.any_eq_false.mpr
  intro q hq hpq
  obtain ⟨row, hrow, howned, rfl⟩ := owned_of_freed hq
  exact hdistinct.not_same hrow howned hp (FilePath.same_comm.mp hpq)

theorem writeRows_wrote {choice : Chosen} {placed : List Track} {ids : List EntryId}
    (h : s.trying (writeRows env tx t choice placed) = (.ok (ids, tx'), s')) :
    ∃ rows, Wrote t tx ids rows tx' ∧ rows.map (·.track) = placed.map stored := by
  obtain ⟨left, hremoves, hrows⟩ := writeRows_ok h
  have hleft : left.albums = tx.albums.filter fun a => .album a.id ∉ t.replaces := by rw [hremoves.catalog_eq]
  cases halbum : t.isAlbum with
  | true =>
    rw [if_pos halbum] at hrows
    obtain ⟨rfl, rfl⟩ := Prod.mk.inj hrows
    obtain ⟨rows, hitems, htracks, howned⟩ := left.addAlbum_rows (t.albumRow choice) placed
    have halbums := left.addAlbum_albums (t.albumRow choice) placed
    rw [hleft] at halbums
    refine ⟨rows, ⟨by rw [hitems, hremoves.items_eq], fun _ => ⟨_, rfl, howned, halbums⟩, ?_⟩, htracks⟩
    simp [halbum]
  | false =>
    rw [if_neg (by simp [halbum])] at hrows
    obtain ⟨rfl, rfl⟩ := Prod.mk.inj hrows
    obtain ⟨rows, hitems, htracks, hids, howned⟩ := left.add_rows placed
    refine ⟨rows, ⟨by rw [hitems, hremoves.items_eq], by simp [halbum], fun _ => ⟨hids, howned, ?_⟩⟩, htracks⟩
    rw [add_albums, hleft]

/-- The rows of a task come behind those that stay. -/
theorem writeRows_items {choice : Chosen} {placed : List Track} {ids : List EntryId}
    (h : s.trying (writeRows env tx t choice placed) = (.ok (ids, tx'), s')) :
    ∃ rows, tx'.items = tx.without t.replaces ++ rows ∧ rows.map (·.track) = placed.map stored := by
  obtain ⟨rows, hwrote, htracks⟩ := writeRows_wrote h
  exact ⟨rows, hwrote.items, htracks⟩

theorem begin_ok (h : s.trying (begin env) = (.ok tx, u)) : tx = s.catalog := by
  obtain ⟨_, v, hattempt, h⟩ := trying_bind_ok.mp h
  have hv := (attempt_consults env .transaction).result hattempt
  simp only [trying_bind, trying_get, trying_pure, Prod.mk.injEq, Except.ok.injEq] at h
  rw [← h.1, hv.catalog]

theorem commit_ok (h : s.trying (commit env tx) = (.ok (), s')) : s'.catalog = tx := by
  obtain ⟨_, u, -, h⟩ := trying_bind_ok.mp h
  simp only [trying_modify, Prod.mk.injEq, true_and] at h
  rw [← h]

/-- What fails is told after it was given up, so an answer is that of the attempt itself. -/
theorem tryCatch_rethrow_ok {ε α : Type} {x : Attempt ε α} {y : ε → Attempt ε Unit} {a : α}
    (h : s.trying (tryCatch x fun e => do y e; throw e) = (.ok a, s')) : s.trying x = (.ok a, s') := by
  rw [trying_tryCatch] at h
  rcases hx : s.trying x with ⟨e | b, u⟩
  · rw [hx] at h
    obtain ⟨_, v, -, hthrow⟩ := trying_bind_ok.mp h
    simp at hthrow
  · simpa [hx] using h

/-- A commit puts the rows in place that were written on top of the catalog. -/
theorem commitRows_rows {choice : Chosen} {placed : List Track} {ids : List EntryId}
    (h : s.trying (commitRows env t choice placed) = (.ok ids, s')) :
    ∃ u v : Session, u.trying (writeRows env s.catalog t choice placed) = (.ok (ids, s'.catalog), v) := by
  obtain ⟨tx, u, hbegin, h⟩ := trying_bind_ok.mp h
  obtain ⟨⟨ids', rows⟩, v, hrows, h⟩ := trying_bind_ok.mp h
  obtain ⟨_, w, hcommit, hend⟩ := trying_bind_ok.mp h
  simp only [trying_pure, Prod.mk.injEq, Except.ok.injEq] at hend
  obtain ⟨rfl, rfl⟩ := hend
  obtain rfl := begin_ok hbegin
  rw [commit_ok hcommit]
  exact ⟨u, v, tryCatch_rethrow_ok hrows⟩

theorem commitRows_items {choice : Chosen} {placed : List Track} {ids : List EntryId}
    (h : s.trying (commitRows env t choice placed) = (.ok ids, s')) :
    ∃ rows, s'.catalog.items = s.catalog.without t.replaces ++ rows ∧
      rows.map (·.track) = placed.map stored := by
  obtain ⟨u, v, hrows⟩ := commitRows_rows h
  exact writeRows_items hrows

theorem commitRows_paths {choice : Chosen} {placed : List Track} {ids : List EntryId}
    (h : s.trying (commitRows env t choice placed) = (.ok ids, s')) :
    s'.catalog.paths = keptPaths t s.catalog ++ placed.map (·.path) := by
  obtain ⟨rows, hitems, hrows⟩ := commitRows_items h
  rw [Catalog.paths, hitems, List.map_append, paths_of_stored hrows]
  rfl

end Session
end MusicImport
