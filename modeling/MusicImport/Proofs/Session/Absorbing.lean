import Mathlib.Data.Prod.Lex
import MusicImport.Proofs.Session.Shrinking
import MusicImport.Proofs.Sorting

/-! What a merge makes of a task: its own tracks and those of the entries that it absorbs, in the order of
their positions. The files that the task brings are not absorbed again, but the entries are not
compared with each other: a file that two of them have is in the task twice. -/
namespace MusicImport

/-- Paths of different files. -/
def FilePath.Distinct (paths : List FilePath) : Prop := paths.Pairwise fun p q => ¬ p.same q

instance (paths : List FilePath) : Decidable (FilePath.Distinct paths) :=
  inferInstanceAs (Decidable (paths.Pairwise _))

namespace FilePath

variable {paths others : List FilePath}

theorem Distinct.sublist (h : Distinct paths) (hsub : others.Sublist paths) : Distinct others :=
  List.Pairwise.sublist hsub h

theorem distinct_perm (h : paths.Perm others) : Distinct paths ↔ Distinct others :=
  h.pairwise_iff fun hab hba => hab (same_comm.mp hba)

theorem distinct_append : Distinct (paths ++ others) ↔
    Distinct paths ∧ Distinct others ∧ ∀ p ∈ paths, ∀ q ∈ others, ¬ p.same q := List.pairwise_append

end FilePath

open FilePath

namespace Catalog

variable {c : Catalog} {known : List FilePath} {existing : List CatalogEntry}

/-- The tracks of entries, one entry after the other, without those of known files. -/
def absorbed (c : Catalog) (known : List FilePath) (existing : List CatalogEntry) : List Track :=
  existing.flatMap fun e => (c.tracksOf e.id).filter fun x => !isClaimed known x.path

theorem mem_absorbed {x : Track} : x ∈ c.absorbed known existing ↔
    (∃ e ∈ existing, x ∈ c.tracksOf e.id) ∧ isClaimed known x.path = false := by
  simp only [absorbed, List.mem_flatMap, List.mem_filter, Bool.not_eq_true']
  constructor
  · rintro ⟨e, he, hx, hunknown⟩
    exact ⟨⟨e, he, hx⟩, hunknown⟩
  · rintro ⟨⟨e, he, hx⟩, hunknown⟩
    exact ⟨e, he, hx, hunknown⟩

/-- No track that is absorbed has a known file. -/
theorem absorbed_unknown {p q : FilePath} (hp : p ∈ known)
    (hq : q ∈ (c.absorbed known existing).map (·.path)) : ¬ p.same q := by
  obtain ⟨x, hx, rfl⟩ := List.mem_map.mp hq
  intro hsame
  have hclaimed : isClaimed known x.path = true := List.any_eq_true.mpr ⟨p, hp, same_comm.mp hsame⟩
  rw [(mem_absorbed.mp hx).2] at hclaimed
  cases hclaimed

/-- One entry has no file twice, where no two rows have one. -/
theorem PathsDistinct.tracksOf (h : c.PathsDistinct) (id : EntryId) :
    Distinct ((c.tracksOf id).map (·.path)) := by
  cases id with
  | album id =>
    have hrows : Distinct ((c.items.filter (·.album = some id)).map (·.track.path)) :=
      Distinct.sublist h (List.filter_sublist.map _)
    rw [Catalog.tracksOf, albumItems, List.map_map]
    exact (distinct_perm ((List.mergeSort_perm _ _).map _)).mpr hrows
  | item id =>
    unfold Catalog.tracksOf
    show Distinct ((c.item? id).toList.map (·.path))
    cases c.item? id with
    | none => exact .nil
    | some x => exact List.pairwise_singleton _ _

/-- Entries without a common row have no file in common either, where no two rows have one. -/
theorem PathsDistinct.absorbed (h : c.PathsDistinct) (known : List FilePath)
    (hrows : existing.Pairwise fun e f => ∀ row ∈ c.items, e.id.owns row → ¬ f.id.owns row) :
    Distinct ((c.absorbed known existing).map (·.path)) := by
  induction existing with
  | nil => exact .nil
  | cons e rest ih =>
    obtain ⟨hfirst, hrest⟩ := List.pairwise_cons.mp hrows
    rw [Catalog.absorbed, List.flatMap_cons, List.map_append, distinct_append]
    refine ⟨(h.tracksOf e.id).sublist (List.filter_sublist.map _), ih hrest, fun p hp q hq => ?_⟩
    obtain ⟨x, hx, rfl⟩ := List.mem_map.mp hp
    obtain ⟨y, hy, rfl⟩ := List.mem_map.mp hq
    obtain ⟨⟨f, hf, hy⟩, -⟩ := mem_absorbed.mp hy
    obtain ⟨row, hrow, howned, rfl⟩ := mem_tracksOf (List.mem_filter.mp hx).1
    obtain ⟨other, hother, howned', rfl⟩ := mem_tracksOf hy
    refine h.apart hrow hother ?_
    rintro rfl
    exact hfirst f hf row hrow howned howned'

end Catalog

/-- The tracks of `t'` are those of `t` and others in the order of their positions; at one position those of
`t` come first, and each side is in its order. -/
structure Task.Unites (t : Task) (others : List Track) (t' : Task) : Prop where
  perm : t'.tracks.Perm (t.tracks ++ others)
  sorted : t'.tracks.Pairwise fun a b => toLex (positionKey a) ≤ toLex (positionKey b)
  stable : ∀ position, (t'.tracks.filter fun x => positionKey x = position) =
    (t.tracks.filter fun x => positionKey x = position) ++ others.filter fun x => positionKey x = position

namespace Session

variable {s s' : Session} {env : Environment} {t t' : Task} {known : List FilePath}
  {existing : List CatalogEntry}

theorem notAfter_eq : Task.notAfter = fun a b : Track =>
    decide (toLex (Task.positionKey a) ≤ toLex (Task.positionKey b)) := by
  funext a b
  rw [Bool.eq_iff_iff, decide_eq_true_iff, Prod.Lex.toLex_le_toLex]
  simp [Task.notAfter]

theorem inOrder_unites (t : Task) (others : List Track) (replaces : List EntryId) :
    t.Unites others { t with tracks := t.tracks ++ others, replaces }.inOrder := by
  unfold Task.inOrder
  rw [notAfter_eq]
  refine ⟨List.mergeSort_perm _ _, Sorting.pairwise_mergeSort _ _, fun position => ?_⟩
  rw [← List.filter_append]
  exact Sorting.filter_mergeSort (fun x => toLex (Task.positionKey x)) _ position

/-- Entries are absorbed one after the other, from one catalog. -/
theorem absorbAll_ok (h : s.trying (absorbAll env known t existing) = (.ok t', s')) :
    t' = { t with
      tracks := t.tracks ++ s.catalog.absorbed known existing
      replaces := t.replaces ++ existing.map (·.id) } := by
  induction existing generalizing s t with
  | nil =>
    cases h
    simp [Catalog.absorbed]
  | cons e rest ih =>
    obtain ⟨tracks, u, htracks, hrest⟩ := trying_bind_ok.mp h
    have hread := trying_adapt_ok.mp htracks
    have hcatalog := ((entryTracks_consults env e.id).result hread).catalog
    rw [ih hrest, hcatalog, entryTracks_ok hread]
    simp [Catalog.absorbed, Task.absorb]

/-- A merge loses no track and takes in those of the entries that the task does not bring itself. -/
theorem merge_ok (h : s.trying (merge env t existing) = (.ok t', s')) :
    t.Unites (s.catalog.absorbed (t.tracks.map (·.path)) existing) t' ∧
      t'.replaces = t.replaces ++ existing.map (·.id) := by
  obtain ⟨u, v, habsorb, hsearch⟩ := trying_bind_ok.mp h
  obtain ⟨candidates, hfound⟩ := search_candidates hsearch
  have habsorbed := absorbAll_ok habsorb
  have hordered := inOrder_unites t (s.catalog.absorbed (t.tracks.map (·.path)) existing) u.replaces
  rw [hfound, habsorbed]
  exact ⟨⟨hordered.perm, hordered.sorted, hordered.stable⟩, rfl⟩

/-- After a merge each file is there once exactly if the entries have none in common that the task does
not bring itself. -/
theorem merge_unites (hdistinct : Distinct (t.tracks.map (·.path)))
    (h : s.trying (merge env t existing) = (.ok t', s')) :
    t.Unites (s.catalog.absorbed (t.tracks.map (·.path)) existing) t' ∧
      t'.replaces = t.replaces ++ existing.map (·.id) ∧
      (Distinct (t'.tracks.map (·.path)) ↔
        Distinct ((s.catalog.absorbed (t.tracks.map (·.path)) existing).map (·.path))) := by
  obtain ⟨hunites, hreplaces⟩ := merge_ok h
  refine ⟨hunites, hreplaces, ?_⟩
  have hperm := hunites.perm.map (·.path)
  rw [List.map_append] at hperm
  rw [distinct_perm hperm, distinct_append]
  constructor
  · exact fun hall => hall.2.1
  · exact fun hothers => ⟨hdistinct, hothers, fun p hp q hq => Catalog.absorbed_unknown hp hq⟩

/-- The second song of an album. -/
def songOfX : Task :=
  { key := "in", isAlbum := true, state := .duplicateCheck, selection := some .asIs
    tracks := [{ path := ⟨"in/b.flac"⟩, title := some "B", album := some "X", trackNumber := some 2 }] }

/-- Its first song. -/
def firstOfX : Track :=
  { path := ⟨"lib/A.flac"⟩, title := some "A", album := some "X", trackNumber := some 1 }

/-- A library with two albums that have the same first song. -/
def twinAlbums : Session :=
  let x : NewAlbum := { albumArtist := "", album := "X" }
  { files := { nodes := [(["in"], .directory), (["in", "b.flac"], .file "two".toUTF8),
      (["lib"], .directory), (["lib", "A.flac"], .file "one".toUTF8)] }
    catalog := ((({} : Catalog).addAlbum x [firstOfX]).2.addAlbum x [firstOfX]).2 }

/-- Both albums. -/
def twins : List CatalogEntry := rivals twinAlbums.catalog songOfX

theorem twins_tracks {n : Int} (h : n = 1 ∨ n = 2) : twinAlbums.catalog.tracksOf (.album n) = [firstOfX] := by
  rw [Catalog.tracksOf, Catalog.albumItems, List.mergeSort_of_pairwise]
  all_goals obtain rfl | rfl := h <;> decide

theorem merge_unites_later : ∃ t' s',
    twinAlbums.trying (merge (titleLibrary .copy) songOfX (twins.drop 1)) = (.ok t', s') ∧
      Distinct (t'.tracks.map (·.path)) ∧ t'.replaces = [.album 2] := by
  have hok : (twinAlbums.trying (merge (titleLibrary .copy) songOfX (twins.drop 1))).1.toOption.isSome := by
    decide
  rcases h : twinAlbums.trying (merge (titleLibrary .copy) songOfX (twins.drop 1)) with ⟨b | t', s'⟩
  · rw [h] at hok
    cases hok
  obtain ⟨-, hreplaces, hdistinct⟩ := merge_unites (by decide) h
  refine ⟨t', s', rfl, hdistinct.mpr ?_, hreplaces.trans (by decide)⟩
  show Distinct (List.map (·.path) ((twinAlbums.catalog.tracksOf (.album 2)).filter _ ++ []))
  rw [twins_tracks (.inr rfl)]
  decide

/-- The song that both albums have is taken in with each of them. -/
theorem merged_twice : Distinct (songOfX.tracks.map (·.path)) ∧ ∃ t' s',
    twinAlbums.trying (merge (titleLibrary .copy) songOfX twins) = (.ok t', s') ∧
      (t'.tracks.map (·.path)).Perm [⟨"in/b.flac"⟩, ⟨"lib/A.flac"⟩, ⟨"lib/A.flac"⟩] ∧
      ¬ Distinct (t'.tracks.map (·.path)) := by
  refine ⟨by decide, ?_⟩
  have hok : (twinAlbums.trying (merge (titleLibrary .copy) songOfX twins)).1.toOption.isSome := by decide
  rcases h : twinAlbums.trying (merge (titleLibrary .copy) songOfX twins) with ⟨b | t', s'⟩
  · rw [h] at hok
    cases hok
  have habsorbed : twinAlbums.catalog.absorbed (songOfX.tracks.map (·.path)) twins = [firstOfX, firstOfX] := by
    show (twinAlbums.catalog.tracksOf (.album 1)).filter _ ++
      ((twinAlbums.catalog.tracksOf (.album 2)).filter _ ++ []) = _
    rw [twins_tracks (.inl rfl), twins_tracks (.inr rfl)]
    decide
  have hpaths := (merge_ok h).1.perm.map (·.path)
  rw [habsorbed] at hpaths
  exact ⟨t', s', rfl, hpaths, fun hdistinct => absurd ((distinct_perm hpaths).mp hdistinct) (by decide)⟩

end Session
end MusicImport
