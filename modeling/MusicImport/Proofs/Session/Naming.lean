import MusicImport.Proofs.Session.Recording

/-! The item row that applying a single file puts into the catalog. Its name is that of the file in the
library, with the values it has received. The name under which the catalog was asked for duplicates is
another one where a recording tells no artist, so that the file keeps its own, and where a file without a
title gets another file name. -/
namespace MusicImport

/-- An outcome that a single file can have: as it is, or a match that a single file was scored for. -/
def Chosen.FitsItem : Chosen → Prop
  | .asIs => True
  | .matched m => ∃ w tracks candidate, Match.score? w false tracks candidate = some m

/-- Only recordings are scored for single files. -/
theorem Match.track_of_score {w : DistanceWeights Float} {tracks : List Track} {candidate : Candidate}
    {m : Match Float} (h : Match.score? w false tracks candidate = some m) :
    ∃ c, m.candidate = .track c := by
  cases candidate with
  | album a => cases h
  | track c =>
    obtain ⟨t, -, rfl⟩ := Option.map_eq_some_iff.mp h
    exact ⟨c, rfl⟩

/-- The part of a name that an outcome leaves to the file is the same in the library: the file name in
place of a missing title, and the artist in place of one that the recording does not tell. -/
def Chosen.KeepsName (track : Track) (dest : FilePath) : Chosen → Prop
  | .asIs => track.title = none →
      Text.normalize (dest.stem?.getD "Unknown") = Text.normalize (track.path.stem?.getD "Unknown")
  | .matched ⟨.track c, _, _, _⟩ => c.artist = none → Text.normalize (track.artist.getD "") = ""
  | .matched ⟨.album _, _, _, _⟩ => True

namespace Identity

theorem item_key_artist {artist artist' title : String} :
    (item artist title).key = (item artist' title).key ↔ Text.normalize artist = Text.normalize artist' := by
  simp [key, parts, isAlbum]

theorem item_key_title {artist title title' : String} :
    (item artist title).key = (item artist title').key ↔ Text.normalize title = Text.normalize title' := by
  simp [key, parts, isAlbum]

end Identity

namespace Task

variable {t : Task} {track : Track} {choice : Chosen}

/-- A single file that has received its values and was brought to a path has the identity of its task
exactly if its name is kept. -/
theorem placed_key_iff {f : TagFields} (hsingle : t.isAlbum = false) (htracks : t.tracks = [track])
    (hchoice : t.chosen.or t.selection = some choice) (hfits : choice.FitsItem)
    (hf : t.resolvedFields choice = [f]) (dest : FilePath) :
    ((track.withFields f).relocated dest).itemIdentity.key = t.identity.key ↔ choice.KeepsName track dest := by
  unfold identity
  rw [hchoice]
  simp only [hsingle, Bool.false_eq_true, if_false, htracks, List.head?_cons]
  cases choice with
  | asIs =>
    obtain rfl : {} = f := by simpa [resolvedFields, htracks] using hf
    refine Identity.item_key_title.trans ?_
    cases htitle : track.title <;> simp [Chosen.KeepsName, Track.displayTitle, Track.relocated, htitle]
  | matched m =>
    obtain ⟨w, tracks, candidate, hscore⟩ := hfits
    obtain ⟨c, hc⟩ := Match.track_of_score hscore
    obtain ⟨_, alignment, distance, isPartial⟩ := m
    subst hc
    obtain rfl : c.fields = f := by simpa [resolvedFields, htracks] using hf
    refine Identity.item_key_artist.trans ?_
    cases hartist : c.artist with
    | none =>
      have hempty : Text.normalize "" = "" := rfl
      simp [Chosen.KeepsName, Candidate.parts, TrackCandidate.fields, Track.withFields, Track.relocated, hartist,
        hempty]
    | some artist => simp [Chosen.KeepsName, Candidate.parts, TrackCandidate.fields, Track.withFields,
        Track.relocated, hartist]

end Task

namespace Session

variable {s s' : Session} {env : Environment} {t u u' : Task} {id : Int}

/-- A first attempt that succeeds leaves the rows of single files behind those that stay, each under the
path that is told for it. -/
theorem apply_single {a : Applied} (hsingle : t.isAlbum = false)
    (hfirst : .catalogCommit ∉ env.journal.completedSteps t.key)
    (h : s.trying (apply env t) = (.ok a, s')) :
    ∃ left xs, s.catalog.Removes t.replaces left ∧ xs.map (·.source) = t.tracks.map (·.path) ∧
      a.paths = xs.map (·.dest) ∧
      (env.config.fileStrategy = .reference → a.paths = t.tracks.map (·.path)) ∧
      let placed := placedTracks (t.resolvedTracks (t.chosen.getD .asIs)) xs
      a.entries = (left.add placed).1.map .item ∧ s'.catalog = (left.add placed).2 := by
  rw [apply_first hfirst] at h
  obtain ⟨xs, v, w, x, z, htransfer, hretag, hcommit, hmove, hnotify, hpaths⟩ := applyAll_ok h
  obtain ⟨hworks, -, claimed, hplaced⟩ := transfer_ok htransfer
  obtain ⟨c, c', hrows⟩ := commitRows_rows hcommit
  obtain ⟨left, hremoves, hwritten⟩ := writeRows_ok hrows
  rw [if_neg (by simp [hsingle])] at hwritten
  obtain ⟨hids, hcatalog⟩ := Prod.mk.inj hwritten
  have hbefore : w.catalog = s.catalog := (retag_ok hretag).1.catalog.trans hworks.catalog
  rw [hbefore] at hremoves
  refine ⟨left, xs, hremoves, hplaced.sources.trans (destinations_sources ..), hpaths, ?_, hids, ?_⟩
  · intro hreference
    rw [hpaths, transfer_reference hreference htransfer, destinations_sources]
  · rw [hnotify.catalog, finishMove_catalog hmove, hcatalog]

/-- An attempt that tells one item was about one file. Its row has the next id, and the name of the file at
the path that is told. -/
theorem apply_item {a : Applied} (hsingle : t.isAlbum = false)
    (hfirst : .catalogCommit ∉ env.journal.completedSteps t.key)
    (h : s.trying (apply env t) = (.ok a, s')) (hentries : a.entries = [.item id]) :
    ∃ track f dest, t.tracks = [track] ∧ t.resolvedFields (t.chosen.getD .asIs) = [f] ∧ a.paths = [dest] ∧
      (env.config.fileStrategy = .reference → dest = track.path) ∧ id = s.catalog.lastItem + 1 ∧
      let placed := (track.withFields f).relocated dest
      s'.catalog.items =
        s.catalog.without t.replaces ++ [⟨id, none, placed.itemIdentity.key, Catalog.stored placed⟩] := by
  obtain ⟨left, xs, hremoves, hsources, hpaths, hreference, hids, hcatalog⟩ :=
    apply_single hsingle hfirst h
  have hlength : xs.length = t.tracks.length := by simpa using congrArg List.length hsources
  have hone : t.tracks.length = 1 := by
    have hrows := congrArg List.length (hentries.symm.trans hids)
    simpa [Catalog.add, placedTracks, Task.resolvedTracks, hlength] using hrows.symm
  obtain ⟨track, htrack⟩ := List.length_eq_one_iff.mp hone
  obtain ⟨x, rfl⟩ := List.length_eq_one_iff.mp (hlength.trans hone)
  obtain ⟨f, hf⟩ := List.length_eq_one_iff.mp ((t.length_resolvedFields _).trans hone)
  have hplaced : placedTracks (t.resolvedTracks (t.chosen.getD .asIs)) [x] =
      [(track.withFields f).relocated x.dest] := by
    rw [Task.resolvedTracks, hf, htrack]
    rfl
  rw [hplaced] at hids hcatalog
  obtain rfl : left.lastItem + 1 = id := by simpa [Catalog.add] using hids.symm.trans hentries
  refine ⟨track, f, x.dest, htrack, hf, hpaths, ?_, by rw [hremoves.lastItem_eq], ?_⟩
  · intro href
    simpa [hpaths, htrack] using hreference href
  · rw [hcatalog, ← hremoves.items_eq]
    rfl

/-- The row of a single file that is applied for the first time is found under the identity that its
duplicates were looked for under if its name is kept, and only then. -/
theorem single_found_iff_keepsName {r : Task} {s₀ s₁ s₂ s₃ s₄ : Session} {env' : Environment} {a : Applied}
    (hsingle : u.isAlbum = false)
    (hfits : ∀ choice, u.selection = some choice → choice.FitsItem)
    (hcheck : s₀.trying (checkDuplicates env u) = (.ok (.proceed u'), s₁))
    (hcommit : s₁.trying (commitTask u') = (.ok r, s₂)) (happlying : r.state = .applying)
    (hfirst : .catalogCommit ∉ env'.journal.completedSteps r.key)
    (happly : s₃.trying (apply env' r) = (.ok a, s₄)) (hentries : a.entries = [.item id]) :
    ∃ choice track dest row, u.selection = some choice ∧ u.tracks = [track] ∧ a.paths = [dest] ∧
      (env'.config.fileStrategy = .reference → dest = track.path) ∧
      row ∈ s₄.catalog.items ∧ row.id = id ∧ row.album = none ∧
      (row.identityKey = u.identity.key ↔ choice.KeepsName track dest) ∧
      (choice.KeepsName track dest → ∃ e ∈ s₄.catalog.findDuplicates u.identity, e.id = .item id) ∧
      (s₃.catalog.Counted → (∃ e ∈ s₄.catalog.findDuplicates u.identity, e.id = .item id) →
        choice.KeepsName track dest) := by
  obtain ⟨replaces, rfl, -⟩ := checkDuplicates_same hcheck
  obtain ⟨-, hcommitted⟩ := commitTask_ok hcommit
  obtain ⟨-, rfl⟩ | ⟨-, hchosen, choice, hselected, hr⟩ := hcommitted
  · exact absurd happlying (mark_ne_applying _ (.inl rfl))
  have hfields : r.resolvedFields (r.chosen.getD .asIs) = u.resolvedFields choice := by
    rw [hr]
    cases choice <;> rfl
  obtain ⟨track, f, dest, htracks, hf, hpaths, hreference, hid, hitems⟩ :=
    apply_item (by rw [hr]; exact hsingle) hfirst happly hentries
  replace htracks : u.tracks = [track] := by rwa [hr] at htracks
  have hchoice : u.chosen.or u.selection = some choice := by
    rw [show u.chosen = none from hchosen, show u.selection = some choice from hselected]
    rfl
  have hkey := Task.placed_key_iff hsingle htracks hchoice (hfits choice hselected) (hfields.symm.trans hf) dest
  have hmem : _ ∈ s₄.catalog.items := hitems ▸ List.mem_append_right _ (.head _)
  have hitem : u.identity.isAlbum = false := by simp [Task.identity, hsingle, Identity.isAlbum]
  rw [Catalog.found_item_iff hitem]
  refine ⟨choice, track, dest, _, hselected, htracks, hpaths, hreference, hmem, rfl, rfl, hkey, ?_, ?_⟩
  · intro hkeeps
    exact ⟨_, hmem, rfl, rfl, hkey.mpr hkeeps⟩
  · rintro hcounted ⟨row, hrow, hrowId, -, hsame⟩
    rw [hitems] at hrow
    obtain hold | hnew := List.mem_append.mp hrow
    · have hle := hcounted row (List.mem_of_mem_filter hold)
      omega
    · rw [List.mem_singleton.mp hnew] at hsame
      exact hkey.mp hsame

/-- A task with its outcome committed. -/
def committed (t : Task) : Task := { t with selection := none, state := .applying, chosen := t.selection }

theorem exists_of_toldEntries {r : Except ApplyFailure Applied} {entries : List EntryId}
    (h : r.toOption.map (·.entries) = some entries) : ∃ a, r = .ok a ∧ a.entries = entries := by
  cases r with
  | ok a => exact ⟨a, rfl, Option.some.inj h⟩
  | error e => cases h

def looseFile : Session :=
  { files := { nodes := [(["in"], .directory), (["in", "a.flac"], .file "one".toUTF8)] } }

/-- A recording of nobody that is told, for a file with an artist. -/
def recordedMatch : Match Float :=
  let track : Track := { path := ⟨"in/a.flac"⟩, artist := some "Q" }
  let recording : TrackCandidate := { id := "r", title := "T" }
  ⟨.track recording, { pairs := [(0, 0)] }, itemDistance .standard track recording, false⟩

def recordedTask : Task :=
  { key := "in/a.flac", isAlbum := false, state := .duplicateCheck, selection := some (.matched recordedMatch)
    tracks := [{ path := ⟨"in/a.flac"⟩, artist := some "Q" }] }

theorem single_found_iff_keepsName_recorded :
    ∃ a s', looseFile.trying (apply (titleLibrary .copy) (committed recordedTask)) = (.ok a, s') ∧
      a.entries = [.item 1] ∧ ¬ ∃ e ∈ s'.catalog.findDuplicates recordedTask.identity, e.id = .item 1 := by
  have hfits : ∀ choice, recordedTask.selection = some choice → choice.FitsItem := by
    rintro choice hchoice
    obtain rfl := Option.some.inj hchoice
    exact ⟨.standard, recordedTask.tracks, recordedMatch.candidate, rfl⟩
  have hcheck : looseFile.trying (checkDuplicates (titleLibrary .copy) recordedTask) =
      (.ok (.proceed recordedTask), (enter (titleLibrary .copy) .findDuplicates looseFile).2) := rfl
  have htold : (looseFile.trying (apply (titleLibrary .copy) (committed recordedTask))).1.toOption.map (·.entries) =
      some [.item 1] := by decide +kernel
  obtain ⟨a, ha, hentries⟩ := exists_of_toldEntries htold
  obtain ⟨choice, track, dest, row, hchoice, htrack, -, -, -, -, -, -, -, honly⟩ :=
    single_found_iff_keepsName rfl hfits hcheck rfl (r := committed recordedTask) rfl (by decide)
      (Prod.ext ha rfl) hentries
  refine ⟨a, _, Prod.ext ha rfl, hentries, fun hfound => ?_⟩
  have hkeeps := honly (by decide) hfound
  obtain rfl := Option.some.inj hchoice
  obtain ⟨rfl, -⟩ := List.cons.inj htrack
  exact absurd (hkeeps rfl) (by decide)

/-- An untitled file of an album, to be taken as it is. -/
def untitledTask : Task :=
  { key := "in/a.flac", isAlbum := false, state := .duplicateCheck, selection := some .asIs
    tracks := [{ path := ⟨"in/a.flac"⟩, album := some "X" }] }

/-- A library in which files of albums are named by their numbers and titles. -/
def numberedLibrary : Environment :=
  { titleLibrary .copy with layout := .template ⟨"\x7bTrackNo\x7d - \x7bTitle\x7d", true⟩ }

/-- A file that was looked up by its name can get another name in the library. -/
theorem single_not_found :
    ¬ ∀ (env env' : Environment) (u u' r : Task) (s₀ s₁ s₂ s₃ s₄ : Session) (a : Applied) (id : Int),
      u.isAlbum = false → (∀ choice, u.selection = some choice → choice.FitsItem) →
      s₀.trying (checkDuplicates env u) = (.ok (.proceed u'), s₁) →
      s₁.trying (commitTask u') = (.ok r, s₂) → r.state = .applying →
      .catalogCommit ∉ env'.journal.completedSteps r.key →
      s₃.trying (apply env' r) = (.ok a, s₄) → a.entries = [.item id] →
        ∃ e ∈ s₄.catalog.findDuplicates u.identity, e.id = .item id := by
  intro h
  have hfits : ∀ choice, untitledTask.selection = some choice → choice.FitsItem := by
    rintro choice hchoice
    obtain rfl := Option.some.inj hchoice
    trivial
  have hcheck : looseFile.trying (checkDuplicates numberedLibrary untitledTask) =
      (.ok (.proceed untitledTask), (enter numberedLibrary .findDuplicates looseFile).2) := rfl
  have htold : (looseFile.trying (apply numberedLibrary (committed untitledTask))).1.toOption.map (·.entries) =
      some [.item 1] := by decide +kernel
  obtain ⟨a, ha, hentries⟩ := exists_of_toldEntries htold
  obtain ⟨e, he, -⟩ := h numberedLibrary numberedLibrary untitledTask untitledTask (committed untitledTask)
    looseFile _ _ looseFile _ a 1 rfl hfits hcheck rfl rfl (by decide) (Prod.ext ha rfl) hentries
  have hnone : (looseFile.trying (apply numberedLibrary (committed untitledTask))).2.catalog.findDuplicates
      untitledTask.identity = [] := by decide +kernel
  rw [hnone] at he
  cases he

end Session
end MusicImport
