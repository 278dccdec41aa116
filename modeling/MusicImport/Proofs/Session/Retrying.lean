import MusicImport.Proofs.Session.Delivering

/-! A second attempt at a group whose rows the first has committed. It removes the files that the
tracks lead to now, whatever the first attempt did with them. -/
namespace MusicImport
namespace Session

open FileTree

variable {s s' : Session} {env : Environment} {t : Task} {q : Place}

/-- Two attempts at a group that is to be moved. The first commits the rows and fails to remove a
source; the second finds its steps in the journal. In between, anything may happen to the files. -/
structure Retry where
  firstEnv : Environment
  firstTask : Task
  before : Session
  steps : List ApplyStep
  env : Environment
  task : Task
  start : Session
  fresh : .catalogCommit ∉ firstEnv.journal.completedSteps firstTask.key
  fails : failedSteps (before.trying (apply firstEnv firstTask)).1 = some steps
  committed : .catalogCommit ∈ steps
  sameGroup : task.key = firstTask.key
  journaled : env.journal.completedSteps task.key = steps
  moves : firstEnv.config.fileStrategy = .move ∧ env.config.fileStrategy = .move

namespace Retry

/-- The session after the first attempt. -/
def after (r : Retry) : Session := (r.before.trying (apply r.firstEnv r.firstTask)).2

/-- The session after the second attempt. -/
def final (r : Retry) : Session := (r.start.trying (apply r.env r.task)).2

/-- The second attempt removes the file at a place. -/
def Gone (r : Retry) (q : Place) : Prop :=
  (r.start.files.contentAt? q).isSome ∧ r.final.files.nodeAt? q = none

/-- A track of the second attempt leads to a file that can be removed. -/
def Named (r : Retry) (q : Place) : Prop :=
  (r.start.files.contentAt? q).isSome ∧ r.start.files.isKept q = false ∧
    ∃ track ∈ r.task.tracks, r.start.files.locate track.path false = .ok q

/-- The first attempt has transferred the file at a place to another path: it was to remove the
source there, and the content is the one that it saw. -/
def Moved (r : Retry) (q : Place) : Prop :=
  ∃ p ∈ removedSources r.firstEnv r.firstTask r.before, r.start.files.locate p false = .ok q ∧
    ∃ c, r.before.files.read p = .ok c ∧ r.start.files.contentAt? q = some c

/-- The first attempt was to remove the source at a place. -/
def Handed (r : Retry) (q : Place) : Prop :=
  ∃ p ∈ removedSources r.firstEnv r.firstTask r.before, r.start.files.locate p false = .ok q

/-- A row of the catalog points at the file at a place. -/
def Cataloged (r : Retry) (q : Place) : Prop :=
  ∃ item ∈ r.start.catalog.items, r.start.files.locate item.track.path = .ok q

/-- The file at a place joined after the first attempt. -/
def Joined (r : Retry) (q : Place) : Prop := r.after.files.contentAt? q = none

/-- The second attempt is at the tracks of the first. In between, no file joined that they lead to, and the
sources that are still there kept their content. -/
structure Unchanged (r : Retry) : Prop where
  tracks : r.task.tracks.map (·.path) = r.firstTask.tracks.map (·.path)
  sources : ∀ p ∈ removedSources r.firstEnv r.firstTask r.before, ∀ q c,
    r.start.files.locate p false = .ok q → r.start.files.contentAt? q = some c → r.before.files.read p = .ok c
  joined : ∀ q, r.Named q → ¬ r.Joined q

/-- The first attempt left no file in place that can still be removed, and no row has one of its sources. -/
def Cleared (r : Retry) : Prop :=
  ∀ x ∈ made r.firstEnv r.firstTask r.before, ∀ q, r.Named q → r.start.files.locate x.source false = .ok q →
    (x.placement = .inPlace ∨ x.source.same x.dest → r.Handed q) ∧ ¬ r.Cataloged q

variable {r : Retry}

/-- A retry changes the files by removing those of its tracks. -/
theorem final_files (r : Retry) :
    r.final.files = r.start.files.removeFiles (r.task.tracks.map (·.path)) := by
  have hcommitted : .catalogCommit ∈ r.env.journal.completedSteps r.task.key := by
    rw [r.journaled]
    exact r.committed
  rcases hrun : r.start.trying (apply r.env r.task) with ⟨result, last⟩
  have hfiles := (apply_committed hcommitted hrun).2.1
  rw [if_pos r.moves.2] at hfiles
  unfold final
  rw [hrun]
  exact hfiles

/-- Whatever was done to the files in between, a retry removes nothing but what its tracks lead to. -/
theorem named_of_gone (h : r.Gone q) : r.Named q := by
  obtain ⟨hsome, hgone⟩ := h
  obtain ⟨c, hc⟩ := Option.isSome_iff_exists.mp hsome
  rw [r.final_files] at hgone
  obtain ⟨p, hp, hl, -, hk⟩ := removed_of_removeFiles (contentAt?_eq_some.mp hc) hgone
  obtain ⟨track, htrack, rfl⟩ := List.mem_map.mp hp
  exact ⟨hsome, hk, track, htrack, hl⟩

/-- It removes all of that where no path of a track is a link. -/
theorem gone_iff (hplain : r.start.files.Plain (r.task.tracks.map (·.path))) :
    r.Gone q ↔ r.Named q := by
  refine ⟨named_of_gone, ?_⟩
  rintro ⟨hsome, hk, track, htrack, hl⟩
  obtain ⟨c, hc⟩ := Option.isSome_iff_exists.mp hsome
  refine ⟨hsome, ?_⟩
  rw [r.final_files]
  exact hplain.removed (List.mem_map_of_mem htrack) hl hc hk

/-- The first attempt has transferred each of its tracks. -/
theorem made_sources (r : Retry) :
    (made r.firstEnv r.firstTask r.before).map (·.source) = r.firstTask.tracks.map (·.path) := by
  obtain ⟨e, he, hsteps⟩ := exists_of_failedSteps r.fails
  have hrun : r.before.trying (apply r.firstEnv r.firstTask) = (.error e, r.after) := Prod.ext he rfl
  rw [apply_first r.fresh] at hrun
  obtain ⟨-, hnone⟩ | ⟨xs, u, htransfer, -⟩ := applyAll_error hrun
  · have hcommitted := r.committed
    rw [← hsteps, hnone] at hcommitted
    cases hcommitted
  · obtain ⟨-, -, claimed, hplaced⟩ := transfer_ok htransfer
    rw [made_eq htransfer, hplaced.sources, destinations_sources]

/-- What the first attempt did not leave in place it was to remove. -/
theorem handed_of_made {x : Transfer} (hx : x ∈ made r.firstEnv r.firstTask r.before)
    (hl : r.start.files.locate x.source false = .ok q)
    (hmoved : ¬ (x.placement = .inPlace ∨ x.source.same x.dest)) : r.Handed q := by
  refine ⟨x.source, ?_, hl⟩
  rw [removedSources, if_pos r.moves.1]
  exact List.mem_map.mpr ⟨x, List.mem_filter.mpr ⟨hx, by simpa using hmoved⟩, rfl⟩

/-- Where nothing was changed in between, whatever a retry removes was moved by the first attempt, is in no row
and did not join, exactly if this attempt has cleared its sources. -/
theorem Unchanged.moved_iff (h : r.Unchanged) (hgone : ∀ q, r.Gone q ↔ r.Named q) :
    (∀ q, r.Gone q → r.Moved q ∧ ¬ r.Cataloged q ∧ ¬ r.Joined q) ↔ r.Cleared := by
  constructor
  · intro hall x hx q hq hl
    obtain ⟨⟨p, hp, hlp, -⟩, hrow, -⟩ := hall q ((hgone q).mpr hq)
    exact ⟨fun _ => ⟨p, hp, hlp⟩, hrow⟩
  · intro hcleared q hq
    have hnamed := (hgone q).mp hq
    have ⟨hsome, _, track, htrack, hl⟩ := hnamed
    have hsource : track.path ∈ (made r.firstEnv r.firstTask r.before).map (·.source) := by
      rw [r.made_sources, ← h.tracks]
      exact List.mem_map_of_mem htrack
    obtain ⟨x, hx, hpath⟩ := List.mem_map.mp hsource
    rw [← hpath] at hl
    obtain ⟨hstays, hrow⟩ := hcleared x hx q hnamed hl
    have hhanded : r.Handed q := by
      by_cases hplace : x.placement = .inPlace ∨ x.source.same x.dest
      · exact hstays hplace
      · exact handed_of_made hx hl hplace
    obtain ⟨p, hp, hlp⟩ := hhanded
    obtain ⟨c, hc⟩ := Option.isSome_iff_exists.mp hsome
    exact ⟨⟨p, hp, hlp, c, h.sources p hp q c hlp hc, hc⟩, hrow, h.joined q hnamed⟩

/-- A retry removes nothing but what its own tracks lead to, and all of that where none of their paths
is a link. So if nothing was changed in between, it removes nothing but what the first attempt has transferred
to another path, nothing that the catalog has, and nothing that joined, exactly where the first attempt left no
file in place and no row has one of its sources. -/
theorem removes_only_moved_iff (r : Retry) : (∀ q, r.Gone q → r.Named q) ∧
    (r.start.files.Plain (r.task.tracks.map (·.path)) → (∀ q, r.Gone q ↔ r.Named q) ∧
      (r.Unchanged →
        ((∀ q, r.Gone q → r.Moved q ∧ ¬ r.Cataloged q ∧ ¬ r.Joined q) ↔ r.Cleared))) := by
  refine ⟨fun q => named_of_gone, fun hplain => ?_⟩
  have hgone : ∀ q, r.Gone q ↔ r.Named q := fun q => gone_iff hplain
  exact ⟨hgone, fun hunchanged => hunchanged.moved_iff hgone⟩

end Retry

/-- A track that is at its destination, and one that is to be moved there. -/
def partlyInPlace : Task :=
  { key := "in", isAlbum := true, state := .applying, chosen := some .asIs
    tracks := [{ path := ⟨"lib/01.flac"⟩, title := some "01", album := some "X" },
      { path := ⟨"in/b.flac"⟩, title := some "02", album := some "X" }] }

/-- The directory of the second one cannot be changed. -/
def lockedSession : Session :=
  { files := { nodes := [(["in"], .directory), (["in", "b.flac"], .file "two".toUTF8),
      (["lib"], .directory), (["lib", "01.flac"], .file "one".toUTF8)], readOnly := [["in"]] } }

/-- The session after an attempt, with the directory unlocked. -/
def unlocked (s : Session) : Session := { s with files := { s.files with readOnly := [] } }

def committedSteps : List ApplyStep := [.transferFiles, .writeTags, .catalogCommit]

/-- The library with a journal of the failed attempt. -/
def resumedLibrary : Environment :=
  { titleLibrary .move with
    journal := ⟨[{ key := "in", outcome := .failed, timestamp := .epoch
                   completedSteps := committedSteps }]⟩ }

def inPlaceRetry : Retry where
  firstEnv := titleLibrary .move
  firstTask := partlyInPlace
  before := lockedSession
  steps := committedSteps
  env := resumedLibrary
  task := partlyInPlace
  start := unlocked (lockedSession.trying (apply (titleLibrary .move) partlyInPlace)).2
  fresh := by decide
  fails := by decide +kernel
  committed := by decide
  sameGroup := rfl
  journaled := by decide
  moves := ⟨rfl, rfl⟩

theorem inPlaceRetry_plain :
    inPlaceRetry.start.files.Plain (inPlaceRetry.task.tracks.map (·.path)) :=
  NoLinks.plain (noLinks_of_nodes (by decide +kernel)) _

/-- The second track by itself. -/
def lockedTask : Task :=
  { partlyInPlace with tracks := [{ path := ⟨"in/b.flac"⟩, title := some "02", album := some "X" }] }

def lockedRetry : Retry where
  firstEnv := titleLibrary .move
  firstTask := lockedTask
  before := lockedSession
  steps := committedSteps
  env := resumedLibrary
  task := lockedTask
  start := unlocked (lockedSession.trying (apply (titleLibrary .move) lockedTask)).2
  fresh := by decide
  fails := by decide +kernel
  committed := by decide
  sameGroup := rfl
  journaled := by decide
  moves := ⟨rfl, rfl⟩

theorem lockedRetry_source : lockedRetry.start.files.locate ⟨"in/b.flac"⟩ false = .ok ["in", "b.flac"] :=
  toOption_eq_some.mp (by decide +kernel)

theorem lockedRetry_named (h : lockedRetry.Named q) : q = ["in", "b.flac"] := by
  obtain ⟨-, -, track, htrack, hl⟩ := h
  obtain rfl := List.mem_singleton.mp htrack
  exact Except.ok.inj (hl.symm.trans lockedRetry_source)

theorem lockedRetry_unchanged : lockedRetry.Unchanged where
  tracks := rfl
  sources := by
    intro p hp q c hl hc
    have hsources : removedSources (titleLibrary .move) lockedTask lockedSession = [⟨"in/b.flac"⟩] := by
      decide +kernel
    obtain rfl : p = ⟨"in/b.flac"⟩ := List.mem_singleton.mp (hsources ▸ hp)
    obtain rfl := Except.ok.inj (hl.symm.trans lockedRetry_source)
    have hcontent : lockedRetry.start.files.contentAt? ["in", "b.flac"] = some "two".toUTF8 := by
      decide +kernel
    obtain rfl := Option.some.inj (hc.symm.trans hcontent)
    exact toOption_eq_some.mp (by decide)
  joined := by
    intro q hq hjoined
    obtain rfl := lockedRetry_named hq
    have hthere : lockedRetry.after.files.contentAt? ["in", "b.flac"] ≠ none := by decide +kernel
    exact hthere hjoined

theorem lockedRetry_cleared : lockedRetry.Cleared := by
  intro x hx q hq _
  obtain rfl := lockedRetry_named hq
  have hmade : (made (titleLibrary .move) lockedTask lockedSession).all (fun x =>
      x.placement != .inPlace && !x.source.same x.dest) = true := by decide +kernel
  refine ⟨fun hplace => ?_, ?_⟩
  · have hmoved := List.all_eq_true.mp hmade x hx
    obtain hplace | hplace := hplace <;> simp [hplace] at hmoved
  · rintro ⟨item, hitem, hl⟩
    have hrows : lockedRetry.start.catalog.items.all (fun item =>
        (lockedRetry.start.files.locate item.track.path).toOption != some ["in", "b.flac"]) = true := by
      decide +kernel
    have hrow := List.all_eq_true.mp hrows item hitem
    simp [toOption_eq_some.mpr hl] at hrow

/-- The source that was left is removed, and nothing else. -/
theorem removes_only_moved_iff_locked : lockedRetry.Gone ["in", "b.flac"] ∧
    ∀ q, lockedRetry.Gone q → lockedRetry.Moved q ∧ ¬ lockedRetry.Cataloged q ∧ ¬ lockedRetry.Joined q := by
  have hplain : lockedRetry.start.files.Plain (lockedRetry.task.tracks.map (·.path)) :=
    NoLinks.plain (noLinks_of_nodes (by decide +kernel)) _
  obtain ⟨hgone, hmoved⟩ := (Retry.removes_only_moved_iff lockedRetry).2 hplain
  refine ⟨(hgone _).mpr ⟨by decide +kernel, by decide +kernel, _, .head _, lockedRetry_source⟩, ?_⟩
  exact (hmoved lockedRetry_unchanged).mpr lockedRetry_cleared

/-- The file in place is removed, although a row of the catalog points at it. -/
theorem retry_removes_cataloged :
    ¬ ∀ r : Retry, r.start.files.Plain (r.task.tracks.map (·.path)) →
      ∀ q, r.Gone q → r.Moved q ∧ ¬ r.Cataloged q ∧ ¬ r.Joined q := by
  intro h
  have hgone : inPlaceRetry.Gone ["lib", "01.flac"] := by
    constructor <;> decide +kernel
  have hrow : inPlaceRetry.start.catalog.items.any (·.track.path = ⟨"lib/01.flac"⟩) := by
    decide +kernel
  obtain ⟨item, hitem, hpath⟩ := List.any_eq_true.mp hrow
  refine (h inPlaceRetry inPlaceRetry_plain _ hgone).2.1 ⟨item, hitem, toOption_eq_some.mp ?_⟩
  rw [of_decide_eq_true hpath]
  decide +kernel

end Session
end MusicImport
