import MusicImport.Proofs.Consensus
import MusicImport.Proofs.Session.Delivering
import MusicImport.Proofs.Session.Departing
import MusicImport.Proofs.Session.Sharing

/-! The album row that applying a task puts into the catalog. It has the identity under which the catalog
was asked for duplicates of the task, so the next import of the album finds it. -/
namespace MusicImport

/-- An outcome that an album can have: as it is, or a match that an album was scored for. -/
def Chosen.FitsAlbum : Chosen → Prop
  | .asIs => True
  | .matched m => ∃ w tracks candidate, Match.score? w true tracks candidate = some m

/-- Only albums are scored for albums. -/
theorem Match.album_of_score {w : DistanceWeights Float} {tracks : List Track} {candidate : Candidate}
    {m : Match Float} (h : Match.score? w true tracks candidate = some m) :
    ∃ a, m.candidate = .album a := by
  cases candidate with
  | album a =>
    simp only [score?, if_true] at h
    obtain rfl := Option.some.inj h
    exact ⟨a, rfl⟩
  | track c =>
    simp only [score?, if_true] at h
    cases h

namespace Task

variable {t : Task} {choice : Chosen}

/-- The row of an album has its identity, be it that of a match or that of its own tags. -/
theorem albumRow_identity (halbum : t.isAlbum = true) (hchoice : t.chosen.or t.selection = some choice)
    (hfits : choice.FitsAlbum) : (t.albumRow choice).identity = t.identity := by
  unfold identity
  rw [hchoice]
  cases choice with
  | asIs =>
    simp only [halbum, if_true, Option.getD_none, consensus_eq]
    rfl
  | matched m =>
    obtain ⟨w, tracks, candidate, hscore⟩ := hfits
    obtain ⟨a, ha⟩ := Match.album_of_score hscore
    obtain ⟨c, alignment, distance, isPartial⟩ := m
    subst ha
    simp only [halbum, if_true, Option.getD_some]
    rfl

end Task

namespace Session

variable {s s' : Session} {env : Environment} {t t' u u' : Task} {choice : Chosen}

/-- A task goes on as the one that was looked up, apart from the entries that a single file may now
replace. -/
theorem checkDuplicates_same (h : s.trying (checkDuplicates env t) = (.ok (.proceed t'), s')) :
    ∃ replaces, t' = { t with replaces } ∧ (t.isAlbum = true → replaces = t.replaces) := by
  cases checkDuplicates_check h with
  | spared => exact ⟨t.replaces, rfl, fun _ => rfl⟩
  | unique _ => exact ⟨t.replaces, rfl, fun _ => rfl⟩
  | stopped _ _ hadvance =>
    obtain ⟨_, _, -, hpure⟩ := trying_bind_ok.mp hadvance
    cases hpure
  | asked _ _ _ _ hcarry =>
    cases carryOut_ok hcarry with
    | kept => exact ⟨t.replaces, rfl, fun _ => rfl⟩
    | removed _ => exact ⟨t.replaces, rfl, fun _ => rfl⟩
    | replaced hsingle => exact ⟨_, rfl, fun halbum => absurd halbum hsingle⟩

/-- An album goes on as the one that was looked up. -/
theorem checkDuplicates_album (halbum : t.isAlbum = true)
    (h : s.trying (checkDuplicates env t) = (.ok (.proceed t'), s')) : t' = t := by
  obtain ⟨replaces, rfl, hsame⟩ := checkDuplicates_same h
  rw [hsame halbum]

theorem writeRows_album {tx tx' : Catalog} {placed : List Track} {ids : List EntryId}
    (halbum : t.isAlbum = true)
    (h : s.trying (writeRows env tx t choice placed) = (.ok (ids, tx'), s')) :
    ∃ row ∈ tx'.albums, ids = [.album row.id] ∧ row.album = t.albumRow choice ∧
      row.identityKey = (t.albumRow choice).identity.key := by
  obtain ⟨left, -, hrows⟩ := writeRows_ok h
  rw [if_pos halbum] at hrows
  obtain ⟨rfl, rfl⟩ := Prod.mk.inj hrows
  refine ⟨⟨_, t.albumRow choice, (t.albumRow choice).identity.key⟩, ?_, rfl, rfl, rfl⟩
  rw [Catalog.addAlbum_albums]
  exact List.mem_append_right _ (.head _)

/-- A first attempt that succeeds leaves the row of the album in the catalog. -/
theorem apply_album {a : Applied} (halbum : t.isAlbum = true)
    (hfirst : .catalogCommit ∉ env.journal.completedSteps t.key)
    (h : s.trying (apply env t) = (.ok a, s')) :
    ∃ row ∈ s'.catalog.albums, a.entries = [.album row.id] ∧
      row.album = t.albumRow (t.chosen.getD .asIs) ∧
      row.identityKey = (t.albumRow (t.chosen.getD .asIs)).identity.key := by
  rw [apply_first hfirst] at h
  obtain ⟨xs, v, w, x, z, -, -, hcommit, hmove, hnotify, -⟩ := applyAll_ok h
  obtain ⟨y, y', hrows⟩ := commitRows_rows hcommit
  rw [hnotify.catalog, finishMove_catalog hmove]
  exact writeRows_album halbum hrows

/-- The row of an album that is applied has the key under which its duplicates were looked for, whatever
was chosen for it. Where applying it for the first time succeeds, the row is found under that key. -/
theorem album_found_under_looked_up {r : Task} {s₀ s₁ s₂ : Session} (halbum : u.isAlbum = true)
    (hfits : ∀ choice, u.selection = some choice → choice.FitsAlbum)
    (hcheck : s₀.trying (checkDuplicates env u) = (.ok (.proceed u'), s₁))
    (hcommit : s₁.trying (commitTask u') = (.ok r, s₂)) (happlying : r.state = .applying) :
    (r.albumRow (r.chosen.getD .asIs)).identity.key = u.identity.key ∧
      ∀ {env' : Environment} {s₃ s₄ : Session} {a : Applied},
        .catalogCommit ∉ env'.journal.completedSteps r.key → s₃.trying (apply env' r) = (.ok a, s₄) →
          ∃ row ∈ s₄.catalog.albums, a.entries = [.album row.id] ∧
            row.album = r.albumRow (r.chosen.getD .asIs) ∧ row.identityKey = u.identity.key ∧
            ∃ e ∈ s₄.catalog.findDuplicates u.identity, e.id = .album row.id := by
  obtain rfl := checkDuplicates_album halbum hcheck
  obtain ⟨-, hcommitted⟩ := commitTask_ok hcommit
  obtain ⟨-, rfl⟩ | ⟨-, hchosen, choice, hselected, hr⟩ := hcommitted
  · exact absurd happlying (mark_ne_applying u' (.inl rfl))
  have hrow : r.albumRow (r.chosen.getD .asIs) = u'.albumRow choice := by
    rw [hr]
    cases choice <;> rfl
  have hidentity : (u'.albumRow choice).identity = u'.identity := by
    apply Task.albumRow_identity halbum _ (hfits choice hselected)
    rw [hchosen, hselected]
    rfl
  rw [hrow, hidentity]
  refine ⟨rfl, fun {env' s₃ s₄ a} hfirst happly => ?_⟩
  have happlied := apply_album (by rw [hr]; exact halbum) hfirst happly
  rw [hrow, hidentity] at happlied
  obtain ⟨row, hmem, hentries, hsame, hkey⟩ := happlied
  have hlooked : u'.identity.isAlbum = true := by
    rw [← hidentity]
    rfl
  exact ⟨row, hmem, hentries, hsame, hkey, Catalog.mem_findDuplicates hmem hlooked hkey⟩

/-- An album to be taken as it is, by two artists that come up equally often, with blanks around some of
its tags. -/
def blankTagged : Task :=
  { key := "in", isAlbum := true, state := .duplicateCheck, selection := some .asIs
    tracks := [{ path := ⟨"in/a.flac"⟩, title := some "One", artist := some " A", album := some "X " },
      { path := ⟨"in/b.flac"⟩, title := some "Two", artist := some "B", album := some "X" }] }

def blankTaggedReady : Task :=
  { blankTagged with selection := none, state := .applying, chosen := some .asIs }

def blankTaggedFiles : Session :=
  { files := { nodes := [(["in"], .directory), (["in", "a.flac"], .file "one".toUTF8),
      (["in", "b.flac"], .file "two".toUTF8)] } }

theorem album_found_under_looked_up_blank :
    (blankTaggedReady.albumRow .asIs).identity.key = blankTagged.identity.key ∧
      ∃ s' id, (∃ a, blankTaggedFiles.trying (apply (titleLibrary .reference) blankTaggedReady) = (.ok a, s') ∧
          a.entries = [.album id]) ∧
        ∃ e ∈ s'.catalog.findDuplicates blankTagged.identity, e.id = .album id := by
  have hfits : ∀ choice, blankTagged.selection = some choice → choice.FitsAlbum := by
    rintro choice hchoice
    obtain rfl := Option.some.inj hchoice
    trivial
  have hcheck : blankTaggedFiles.trying (checkDuplicates (titleLibrary .reference) blankTagged) =
      (.ok (.proceed blankTagged), (enter (titleLibrary .reference) .findDuplicates blankTaggedFiles).2) := rfl
  obtain ⟨hkey, happlied⟩ := album_found_under_looked_up rfl hfits hcheck rfl (r := blankTaggedReady) rfl
  have hpaths : toldPaths (blankTaggedFiles.trying (apply (titleLibrary .reference) blankTaggedReady)).1 =
      some [⟨"in/a.flac"⟩, ⟨"in/b.flac"⟩] := by decide
  obtain ⟨a, ha, -⟩ := exists_of_toldPaths hpaths
  obtain ⟨row, -, hentries, -, -, hfound⟩ := happlied (by decide) (Prod.ext ha rfl)
  exact ⟨hkey, _, row.id, ⟨a, Prod.ext ha rfl, hentries⟩, hfound⟩

end Session
end MusicImport
