import MusicImport.Proofs.Session.Sharing
import MusicImport.Proofs.Session.Delivering
import MusicImport.Proofs.Tags.Overriding

/-! The tags of placed files and the rows of their tracks. Where the tags were written, what is read from a
file is what its row has; where the journal has the writes of an earlier attempt, the file tells what it
told before. -/
namespace MusicImport
namespace Session

open FileTree

namespace WritesAll

variable {s s' : TagStore} {t t' : FileTree} {l : List (Transfer × TagFields)} {p : FilePath} {q : Place}
  {c : ByteArray}

theorem read_other (h : WritesAll s t l s' t') (hother : ∀ x f, (x, f) ∈ l → ¬ x.dest.same p)
    (u : FileTree) : s'.read u p = s.read u p := by
  induction h with
  | nil s t => rfl
  | skip _ _ ih => exact ih fun x f hx => hother x f (.tail _ hx)
  | write _ first _ ih =>
    rw [ih fun x f hx => hother x f (.tail _ hx)]
    exact TagStore.read_write_other first (hother _ _ (.head _)) u

/-- Writes under other paths that lead elsewhere leave what is read from a file that is there. -/
theorem read_elsewhere (h : WritesAll s t l s' t') (hq : t.locate p = .ok q)
    (hc : t'.contentAt? q = some c)
    (hother : ∀ x f, (x, f) ∈ l → ¬ x.dest.same p ∧ t.locate x.dest ≠ .ok q) :
    s'.read t' p = s.read t p := by
  have hcontent := h.retags.content q
  rw [funext (Retags.rewritten_of_not fun x f hx => (hother x f hx).2), Option.map_id', hc] at hcontent
  have hread : t.read p = .ok c := read_ok.mpr ⟨q, hq, hcontent.symm⟩
  have hread' : t'.read p = .ok c := read_ok.mpr ⟨q, h.retags.sameShape.locate_iff.mpr hq, hc⟩
  rw [h.read_other (fun x f hx => (hother x f hx).1)]
  exact TagStore.read_congr hread' hread

/-- The values of a write are read in the end if no later one goes to its path or its file. -/
theorem read_last (h : WritesAll s t l s' t') {i : Nat} {x : Transfer} {f : TagFields}
    (hx : l[i]? = some (x, f)) (hf : f.isEmpty = false) (hsets : s.Sets f) (hq : t.locate x.dest = .ok q)
    (hc : t'.contentAt? q = some c)
    (hlast : ∀ j y g, i < j → l[j]? = some (y, g) → ¬ y.dest.same x.dest ∧ t.locate y.dest ≠ .ok q) :
    ∃ u, s'.read t' x.dest = .ok u ∧ u.withFields f = u := by
  induction h generalizing i with
  | nil s t => simp at hx
  | skip hempty _ ih =>
    cases i with
    | zero =>
      obtain ⟨-, rfl⟩ := Prod.mk.inj (Option.some.inj hx)
      simp [hempty] at hf
    | succ i =>
      refine ih hx hsets hq hc fun j y g hj hy => ?_
      exact hlast (j + 1) y g (Nat.succ_lt_succ hj) hy
  | @write s v s' t u t' y g rest hg first then' ih =>
    have hshape : SameShape t u := (TagStore.write_rewrites first).2.2.toSameShape
    cases i with
    | zero =>
      obtain ⟨rfl, rfl⟩ := Prod.mk.inj (Option.some.inj hx)
      obtain ⟨w, hw, hset⟩ := hsets _ _ _ _ _ first
      refine ⟨w, ?_, hset⟩
      rw [then'.read_elsewhere (hshape.locate_iff.mpr hq) hc, hw]
      intro z d hz
      obtain ⟨j, hj⟩ := List.getElem?_of_mem hz
      obtain ⟨hsame, hl⟩ := hlast (j + 1) z d (Nat.succ_pos j) hj
      exact ⟨hsame, hshape.locate_iff.not.mpr hl⟩
    | succ i =>
      refine ih hx (hsets.of_write first) (hshape.locate_iff.mpr hq) hc fun j z d hj hz => ?_
      obtain ⟨hsame, hl⟩ := hlast (j + 1) z d (Nat.succ_lt_succ hj) hz
      exact ⟨hsame, hshape.locate_iff.not.mpr hl⟩

end WritesAll

variable {s s' : Session} {env : Environment} {t : Task} {a : Applied} {xs : List Transfer}

/-- The row of a track has its values and the path of its file. -/
theorem placedTracks_get {choice : Chosen} {i : Nat} {track : Track} {f : TagFields} {x : Transfer}
    (htrack : t.tracks[i]? = some track) (hf : (t.resolvedFields choice)[i]? = some f)
    (hx : xs[i]? = some x) :
    (placedTracks (t.resolvedTracks choice) xs)[i]? = some ((track.withFields f).relocated x.dest) := by
  simp [placedTracks, Task.resolvedTracks, List.getElem?_zipWith, htrack, hf, hx]

/-- A first attempt that succeeds leaves a row for each track behind those that stay. -/
theorem apply_rows (hnew : .catalogCommit ∉ env.journal.completedSteps t.key)
    (h : s.trying (apply env t) = (.ok a, s')) :
    (made env t s).length = t.tracks.length ∧ a.paths = (made env t s).map (·.dest) ∧
      ∃ rows, s'.catalog.items = s.catalog.without t.replaces ++ rows ∧ rows.map (·.track) =
        (placedTracks (t.resolvedTracks (t.chosen.getD .asIs)) (made env t s)).map Catalog.stored := by
  rw [apply_first hnew] at h
  obtain ⟨xs, u, v, w, z, htransfer, hretag, hcommit, hmove, hnotify, hpaths⟩ := applyAll_ok h
  obtain ⟨hworks, -, claimed, hplaced⟩ := transfer_ok htransfer
  have hmade : made env t s = xs := made_eq htransfer
  have hlength := congrArg List.length (hplaced.sources.trans (destinations_sources ..))
  have hbefore : v.catalog = s.catalog := (retag_ok hretag).1.catalog.trans hworks.catalog
  rw [hmade, hnotify.catalog, finishMove_catalog hmove, ← hbefore]
  exact ⟨by simpa using hlength, hpaths, commitRows_items hcommit⟩

/-- Of a file that is there in the end, the same is read before sources are removed. -/
theorem apply_reads (hnew : .catalogCommit ∉ env.journal.completedSteps t.key)
    (h : s.trying (apply env t) = (.ok a, s')) {path : FilePath} {c : ByteArray}
    (hread : s'.files.read path = .ok c) :
    ∃ tagged q, WritesAll s.tags (placedFiles env t s) (writes env t s) s'.tags tagged ∧
      (placedFiles env t s).locate path = .ok q ∧ tagged.contentAt? q = some c ∧
      s'.tags.read s'.files path = s'.tags.read tagged path := by
  obtain ⟨claimed, tagged, -, hwritten, -, hfiles, -⟩ := apply_ok_files hnew h
  have htagged : tagged.read path = .ok c := read_of_removeFiles (hfiles ▸ hread)
  obtain ⟨q, hq, hc⟩ := read_ok.mp htagged
  exact ⟨tagged, q, hwritten, hwritten.retags.sameShape.locate_iff.mp hq, hc,
    TagStore.read_congr hread htagged⟩

/-- No later path of an attempt is the one at an index, or leads to its file. -/
def LastAt (files : FileTree) (paths : List FilePath) (i : Nat) : Prop :=
  ∀ j path other, i < j → paths[i]? = some path → paths[j]? = some other →
    ¬ other.same path ∧ files.locate other ≠ files.locate path

section

variable (hnew : .catalogCommit ∉ env.journal.completedSteps t.key)
  (h : s.trying (apply env t) = (.ok a, s')) {i : Nat} {x : Transfer} {c : ByteArray}
  (hx : (made env t s)[i]? = some x) (hread : s'.files.read x.dest = .ok c)

include hnew h hread

/-- Where an earlier attempt is said to have written the tags, a file tells what it told when it was
placed. -/
theorem apply_reads_placed (hdone : .writeTags ∈ env.journal.completedSteps t.key) :
    s'.tags.read s'.files x.dest = s.tags.read (placedFiles env t s) x.dest := by
  obtain ⟨tagged, q, hwritten, hq, hc, htagged⟩ := apply_reads hnew h hread
  have hnone : writes env t s = [] := by simp [writes, tagWrites, hdone]
  rw [htagged, hwritten.read_elsewhere hq hc (by simp [hnone])]

include hx

/-- Otherwise it tells the values that were written to it last. -/
theorem apply_reads_written (hwrite : env.config.writeTags = true)
    (hfirst : .writeTags ∉ env.journal.completedSteps t.key) {f : TagFields}
    (hf : (t.resolvedFields (t.chosen.getD .asIs))[i]? = some f) (hset : f.isEmpty = false)
    (hsets : s.tags.Sets f) (hlast : LastAt (placedFiles env t s) a.paths i) :
    ∃ u, s'.tags.read s'.files x.dest = .ok u ∧ u.withFields f = u := by
  obtain ⟨tagged, q, hwritten, hq, hc, htagged⟩ := apply_reads hnew h hread
  have hwrites : writes env t s = (made env t s).zip (t.resolvedFields (t.chosen.getD .asIs)) := by
    simp [writes, tagWrites, hwrite, hfirst]
  have hentry : (writes env t s)[i]? = some (x, f) := by
    rw [hwrites]
    exact List.getElem?_zip_eq_some.mpr ⟨hx, hf⟩
  rw [htagged]
  refine hwritten.read_last hentry hset hsets hq hc fun j y g hj hy => ?_
  have hpaths := (apply_rows hnew h).2.1
  obtain ⟨hsame, hl⟩ := hlast j x.dest y.dest hj (by simp [hpaths, hx])
    (by simp [hpaths, made_of_writes hy])
  exact ⟨hsame, hq ▸ hl⟩

end

/-- An attempt that is to write tags and succeeds leaves a row for each track. A placed file that is there in
the end tells the values of its row if this attempt wrote them and no later track of the task shares the file.
If the journal has the tag writes of an earlier attempt, whatever these were, nothing is written: the file
tells the values exactly if it told them already. -/
theorem apply_tells_rows (hnew : .catalogCommit ∉ env.journal.completedSteps t.key)
    (h : s.trying (apply env t) = (.ok a, s')) (hwrite : env.config.writeTags = true)
    (hsets : ∀ f ∈ t.resolvedFields (t.chosen.getD .asIs), f.isEmpty = false → s.tags.Sets f) :
    ∃ rows, s'.catalog.items = s.catalog.without t.replaces ++ rows ∧
      rows.map (·.track.path) = a.paths ∧
      ∀ i f, (t.resolvedFields (t.chosen.getD .asIs))[i]? = some f →
        ∃ row, rows[i]? = some row ∧ row.track.fields.restrict f = f ∧
          ((∃ c, s'.files.read row.track.path = .ok c) →
            (.writeTags ∉ env.journal.completedSteps t.key → LastAt (placedFiles env t s) a.paths i →
              s'.tags.Tells s'.files f row.track) ∧
            (.writeTags ∈ env.journal.completedSteps t.key →
              (s'.tags.Tells s'.files f row.track ↔
                s.tags.Tells (placedFiles env t s) f row.track))) := by
  obtain ⟨hlength, hpaths, rows, hitems, hrows⟩ := apply_rows hnew h
  refine ⟨rows, hitems, ?_, fun i f hf => ?_⟩
  · have hplaced : (made env t s).length ≤ (t.resolvedTracks (t.chosen.getD .asIs)).length := by
      simp [hlength, Task.resolvedTracks]
    rw [hpaths, ← placedTracks_paths hplaced, Catalog.paths_of_stored hrows]
  have hi : i < t.tracks.length := by simpa using (List.getElem?_eq_some_iff.mp hf).1
  obtain ⟨track, htrack⟩ : ∃ track, t.tracks[i]? = some track := ⟨_, List.getElem?_eq_getElem hi⟩
  obtain ⟨x, hx⟩ : ∃ x, (made env t s)[i]? = some x := ⟨_, List.getElem?_eq_getElem (hlength ▸ hi)⟩
  obtain ⟨row, hrow, hstored⟩ : ∃ row, rows[i]? = some row ∧
      row.track = Catalog.stored ((track.withFields f).relocated x.dest) := by
    have hget := congrArg (·[i]?) hrows
    simpa [placedTracks_get htrack hf hx] using hget
  have hvalues : row.track.fields.restrict f = f := by
    rw [hstored]
    exact track.fields_withFields f
  refine ⟨row, hrow, hvalues, ?_⟩
  rintro ⟨c, hread⟩
  have hpath : row.track.path = x.dest := by
    rw [hstored]
    rfl
  rw [hpath] at hread
  unfold TagStore.Tells
  rw [hpath, hvalues]
  constructor
  · intro hfirst hlast hset
    obtain ⟨u, hu, hagree⟩ := apply_reads_written hnew h hx hread hwrite hfirst hf hset
      (hsets f (List.mem_of_getElem? hf) hset) hlast
    exact ⟨u, hu, Track.fields_of_withFields hagree⟩
  · intro hdone
    rw [apply_reads_placed hnew h hread hdone]

/-- A recording that is not in the library yet. -/
def recordedSession : Session :=
  { files := { nodes := [(["in"], .directory), (["in", "a.flac"], .file "audio".toUTF8)] }
    tags := .records {} }

/-- The values of its match. -/
def recordedFields : TagFields := { title := some "B", album := some "X", trackId := some "r" }

/-- The same with its tags in the file. -/
def embeddedSession : Session :=
  { files := { nodes := [(["in"], .directory),
      (["in", "a.flac"], .file (FlacFile.silent 44100 0 (some thirdOfTwelve)).encode)] }
    tags := .embedded }

theorem recordedFields_clean : recordedFields.Clean := by
  constructor <;> simp [recordedFields, TagFields.CleanText, TagFields.InWord] <;> decide

/-- Importing the recording leaves a copy that tells the values of its row. -/
def TellsRecording (s : Session) : Prop :=
  ∃ a s' row, s.trying (apply (titleLibrary .copy) reusingTask) = (.ok a, s') ∧
    s'.catalog.items = [row] ∧ row.track.path = ⟨"lib/B.flac"⟩ ∧
    s'.tags.Tells s'.files recordedFields row.track

/-- The path that an import of the recording tells, and whether there is a file. -/
def recordedRun (s : Session) : Option (List FilePath) × Bool :=
  let (result, s') := s.trying (apply (titleLibrary .copy) reusingTask)
  (toldPaths result, (s'.files.read ⟨"lib/B.flac"⟩).toOption.isSome)

theorem recorded_run : recordedRun recordedSession = (some [⟨"lib/B.flac"⟩], true) := by decide +kernel

theorem embedded_run : recordedRun embeddedSession = (some [⟨"lib/B.flac"⟩], true) := by decide +kernel

/-- The copy tells the values of its row, whether these are in a record or in the file itself. -/
theorem apply_tells_rows_copy : TellsRecording recordedSession ∧ TellsRecording embeddedSession := by
  have tells {s : Session} (hrun : recordedRun s = (some [⟨"lib/B.flac"⟩], true)) (hempty : s.catalog = {})
      (hsets : ∀ f ∈ reusingTask.resolvedFields (reusingTask.chosen.getD .asIs),
        f.isEmpty = false → s.tags.Sets f) : TellsRecording s := by
    obtain ⟨htold, hread⟩ := Prod.mk.inj hrun
    obtain ⟨a, ha, hpaths⟩ := exists_of_toldPaths htold
    obtain ⟨c, hread⟩ := Option.isSome_iff_exists.mp hread
    have hnew : .catalogCommit ∉ (titleLibrary .copy).journal.completedSteps reusingTask.key := by decide
    obtain ⟨rows, hitems, hrows, hvalues⟩ := apply_tells_rows hnew (Prod.ext ha rfl) rfl hsets
    rw [hpaths] at hrows
    obtain ⟨row, rfl, hpath⟩ := List.map_eq_singleton_iff.mp hrows
    obtain ⟨other, hother, -, htells⟩ := hvalues 0 recordedFields rfl
    obtain rfl : row = other := by simpa using hother
    have hlast : LastAt (placedFiles (titleLibrary .copy) reusingTask s) a.paths 0 := by
      intro j path other hj _ hlater
      rw [hpaths, List.getElem?_eq_none hj] at hlater
      cases hlater
    rw [hempty] at hitems
    refine ⟨a, _, row, Prod.ext ha rfl, hitems, hpath, (htells ?_).1 (by decide) hlast⟩
    rw [hpath]
    exact ⟨c, toOption_eq_some.mp hread⟩
  have hfields {f : TagFields} (hf : f ∈ reusingTask.resolvedFields (reusingTask.chosen.getD .asIs)) :
      f = recordedFields := List.mem_singleton.mp hf
  refine ⟨tells recorded_run rfl fun _ _ _ => TagStore.records_sets_iff.mpr rfl,
    tells embedded_run rfl fun f hf hset => ?_⟩
  rw [hfields hf] at hset ⊢
  exact TagStore.embedded_sets recordedFields_clean hset rfl

/-- References without tag writes, and without the first commit. -/
def untaggedLibrary : Environment :=
  { failingCommit .reference with
    config := { (failingCommit .reference).config with writeTags := false } }

/-- References with tag writes, once an attempt of that kind has failed. -/
def retaggingLibrary : Environment :=
  { titleLibrary .reference with
    journal := ⟨[{ key := "in/a.flac", outcome := .failed, timestamp := .epoch
                   completedSteps := [.transferFiles, .writeTags] }]⟩ }

/-- The session that the failed attempt leaves. -/
def untaggedSession : Session := (recordedSession.trying (apply untaggedLibrary reusingTask)).2

/-- What the catalog has of the recording in the end. -/
def recordedRow : Track := { path := ⟨"in/a.flac"⟩, title := some "B", album := some "X", trackId := some "r" }

theorem untagged_runs :
    let run := untaggedSession.trying (apply retaggingLibrary reusingTask)
    failedSteps (recordedSession.trying (apply untaggedLibrary reusingTask)).1 =
        some [.transferFiles, .writeTags] ∧
      toldPaths run.1 = some [⟨"in/a.flac"⟩] ∧ run.2.catalog.items.map (·.track) = [recordedRow] ∧
      (run.2.files.read ⟨"in/a.flac"⟩).toOption = some "audio".toUTF8 ∧
      ¬ run.2.tags.Tells run.2.files recordedFields recordedRow := by decide +kernel

/-- An attempt that was to write no tags has their writes in the journal all the same. A later one is to write
them, and leaves the file without the values of its row. -/
theorem retried_file_not_tagged :
    ¬ ∀ (first env : Environment) (t : Task) (s₁ s s' : Session) (e : ApplyFailure) (a : Applied),
      s₁.trying (apply first t) = (.error e, s) → env.journal.completedSteps t.key = e.completed →
      .catalogCommit ∉ env.journal.completedSteps t.key → env.config.writeTags = true →
      (∀ f ∈ t.resolvedFields (t.chosen.getD .asIs), f.isEmpty = false → s.tags.Sets f) →
      s.trying (apply env t) = (.ok a, s') →
      ∀ (i : Nat) (f : TagFields) (row : ItemRow), (t.resolvedFields (t.chosen.getD .asIs))[i]? = some f →
        row ∈ s'.catalog.items → a.paths[i]? = some row.track.path →
          (∃ c, s'.files.read row.track.path = .ok c) → s'.tags.Tells s'.files f row.track := by
  intro hall
  obtain ⟨hfails, htold, hrows, hread, hnot⟩ := untagged_runs
  obtain ⟨e, he, hsteps⟩ := exists_of_failedSteps hfails
  obtain ⟨a, ha, hpaths⟩ := exists_of_toldPaths htold
  obtain ⟨row, hitems, htrack⟩ := List.map_eq_singleton_iff.mp hrows
  have hsets : ∀ f ∈ reusingTask.resolvedFields (reusingTask.chosen.getD .asIs),
      f.isEmpty = false → untaggedSession.tags.Sets f := by
    have hreadable : untaggedSession.tags = .records {} := rfl
    rw [hreadable]
    exact fun f _ _ => TagStore.records_sets_iff.mpr rfl
  have hjournal : retaggingLibrary.journal.completedSteps reusingTask.key = e.completed := by
    rw [hsteps]
    decide
  have hpath : row.track.path = ⟨"in/a.flac"⟩ := by
    rw [htrack]
    rfl
  have htells := hall untaggedLibrary retaggingLibrary reusingTask recordedSession untaggedSession _ e a
    (Prod.ext he rfl) hjournal (by decide) rfl hsets (Prod.ext ha rfl) 0 recordedFields row rfl
    (by simp [hitems]) (by simp [hpaths, hpath]) ⟨_, hpath ▸ toOption_eq_some.mp hread⟩
  exact hnot (htrack ▸ htells)

/-- Two files with one content that are matched to recordings of one title. -/
def matchedTwins : Task :=
  { twinTask with
    state := .applying
    chosen := some (.matched
      { candidate := .album { id := "a", artist := "", album := "X", tracks :=
          [{ title := "A", id := some "r" }, { title := "A", id := some "s" }] }
        alignment := { pairs := [(0, 0), (1, 1)] }, distance := ⟨0, 0, []⟩, isPartial := false }) }

/-- The session after both have got to one file. -/
def twinsTagged : Session :=
  (({ twinSession with tags := .records {} } : Session).trying (apply (titleLibrary .copy) matchedTwins)).2

/-- The file tells the values of the later track, so that those of the row before it are not read. -/
theorem earlier_row_not_told : ∃ row ∈ twinsTagged.catalog.items, row.track.trackId = some "r" ∧
    row.track.path = ⟨"lib/A.flac"⟩ ∧
      ¬ twinsTagged.tags.Tells twinsTagged.files { trackId := some "r" } row.track := by
  decide +kernel

end Session
end MusicImport
