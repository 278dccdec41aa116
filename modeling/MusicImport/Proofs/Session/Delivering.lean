import MusicImport.Proofs.Session.Restoring

/-! What an attempt that succeeds leaves at the paths that it tells. The content of a source is at the
path of its track until sources are removed; one that lies at the path of a track takes the file with
it. -/
namespace MusicImport
namespace Session

open FileTree

variable {s s' : Session} {env : Environment} {t : Task} {a : Applied} {q : Place}

/-- The sources that an attempt removes. -/
def removedSources (env : Environment) (t : Task) (s : Session) : List FilePath :=
  if env.config.fileStrategy = .move then movedSources (made env t s) else []

/-- The values that an attempt writes into the file of a track. -/
def ownFields (env : Environment) (t : Task) (s : Session) (i : Nat) : TagFields :=
  ((writes env t s)[i]?.map (·.2)).getD {}

/-- The stages of an attempt that succeeds, seen from the files and the tags. -/
theorem apply_ok_files (hnew : .catalogCommit ∉ env.journal.completedSteps t.key)
    (h : s.trying (apply env t) = (.ok a, s')) :
    ∃ claimed tagged, PlacedAll env.config.fileStrategy s.files claimed
        (destinations env (t.resolvedTracks (t.chosen.getD .asIs))) (made env t s)
        (placedFiles env t s) ∧
      WritesAll s.tags (placedFiles env t s) (writes env t s) s'.tags tagged ∧
      (tagged.removeSources (removedSources env t s)).1 = none ∧
      s'.files = tagged.removeFiles (removedSources env t s) ∧
      a.paths = (made env t s).map (·.dest) := by
  rw [apply_first hnew] at h
  obtain ⟨xs, u, v, w, z, htransfer, hretag, hcommit, hmove, hnotify, hpaths⟩ := applyAll_ok h
  obtain ⟨-, htags, claimed, hplaced⟩ := transfer_ok htransfer
  obtain ⟨-, hr⟩ := retag_ok hretag
  have hmade : made env t s = xs := made_eq htransfer
  have hfiles : placedFiles env t s = u.files := placedFiles_eq htransfer
  have hwrites : writes env t s =
      tagWrites env t (t.chosen.getD .asIs) (env.journal.completedSteps t.key) xs := by
    rw [writes, hmade]
  have hw : w.files = v.files := (commitRows_ok hcommit).files
  have htags' : s'.tags = v.tags :=
    (hnotify.tags.trans (finishMove_tags hmove)).trans (commitRows_ok hcommit).tags
  rw [htags, ← htags'] at hr
  rw [hmade, hfiles, hwrites]
  refine ⟨claimed, v.files, hplaced, hr, ?_⟩
  rw [hnotify.files]
  have hz := finishMove_ok hmove
  unfold removedSources
  split
  next hm =>
    rw [if_pos hm, hw] at hz
    rw [hmade]
    exact ⟨hz.1, by rw [hz.2.1], hpaths⟩
  next hm =>
    rw [if_neg hm] at hz
    exact ⟨rfl, by rw [hz.1, hw]; rfl, hpaths⟩

theorem destinations_sources (env : Environment) (t : Task) (choice : Chosen) :
    (destinations env (t.resolvedTracks choice)).map (·.1) = t.tracks.map (·.path) := by
  have hlen : ((t.resolvedTracks choice).map (·.path)).length ≤
      ((t.resolvedTracks choice).map (destination env)).length := by simp
  rw [destinations, List.map_fst_zip hlen]
  refine List.ext_getElem (by simp [Task.resolvedTracks]) fun i hi hi' => ?_
  simp [Task.resolvedTracks, Track.withFields]

/-- No other path of an attempt leads to a place. -/
def Alone (files : FileTree) (paths : List FilePath) (i : Nat) (q : Place) : Prop :=
  ∀ j path, j ≠ i → paths[j]? = some path → files.locate path ≠ .ok q

theorem made_of_writes {j : Nat} {x : Transfer} {f : TagFields}
    (h : (writes env t s)[j]? = some (x, f)) : (made env t s)[j]? = some x := by
  unfold writes tagWrites at h
  split at h
  · exact (List.getElem?_zip_eq_some.mp h).1
  · simp at h

/-- A file that the path of one track only leads to is written to for this track only. -/
theorem rewrittenBy_alone {i : Nat} {x : Transfer} (hx : (made env t s)[i]? = some x)
    (hl : (placedFiles env t s).locate x.dest = .ok q)
    (halone : Alone (placedFiles env t s) ((made env t s).map (·.dest)) i q) :
    rewrittenBy env t s (writes env t s) q =
      Retags.written (s.tags.retagged x.dest) (ownFields env t s i) := by
  have hother {j : Nat} {y : Transfer} {d : TagFields} (hy : (writes env t s)[j]? = some (y, d))
      (hj : j ≠ i) : (placedFiles env t s).locate y.dest ≠ .ok q :=
    halone j y.dest hj (by simp [made_of_writes hy])
  funext c
  unfold rewrittenBy ownFields
  cases hi : (writes env t s)[i]? with
  | none =>
    rw [Retags.rewritten_of_not]
    · rfl
    · intro y d hy
      obtain ⟨j, hj⟩ := List.getElem?_of_mem hy
      refine hother hj ?_
      rintro rfl
      simp [hi] at hj
  | some entry =>
    obtain ⟨y, f⟩ := entry
    obtain rfl : x = y := Option.some.inj (hx.symm.trans (made_of_writes hi))
    obtain ⟨hlt, hget⟩ := List.getElem?_eq_some_iff.mp hi
    have hsplit : writes env t s =
        (writes env t s).take i ++ (x, f) :: (writes env t s).drop (i + 1) := by
      rw [← hget, List.getElem_cons_drop, List.take_append_drop]
    have hbefore (y : Transfer) (d : TagFields) (hy : (y, d) ∈ (writes env t s).take i) :
        (placedFiles env t s).locate y.dest ≠ .ok q := by
      obtain ⟨j, hj⟩ := List.getElem?_of_mem hy
      rw [List.getElem?_take] at hj
      split at hj
      next hji => exact hother hj (Nat.ne_of_lt hji)
      · cases hj
    have hafter (y : Transfer) (d : TagFields) (hy : (y, d) ∈ (writes env t s).drop (i + 1)) :
        (placedFiles env t s).locate y.dest ≠ .ok q := by
      obtain ⟨j, hj⟩ := List.getElem?_of_mem hy
      rw [List.getElem?_drop] at hj
      exact hother hj (by omega)
    rw [hsplit, Retags.rewritten_append, Retags.rewritten_of_not hbefore, Retags.rewritten,
      if_pos (toOption_eq_some.mpr hl), Retags.rewritten_of_not hafter]
    rfl

/-- Every path that an attempt tells leads to a file unless one of the sources it has removed lay
there. Where no later copy got to the same place, the content is that of the source with the values
that were written to it: those of this very track, if the path of no other track leads there. -/
theorem apply_ok_paths (hnew : .catalogCommit ∉ env.journal.completedSteps t.key)
    (h : s.trying (apply env t) = (.ok a, s'))
    (hplain : (placedFiles env t s).Plain (removedSources env t s))
    (hcopies : ∀ q, (placedFiles env t s).CopiedTo (made env t s) q → s.files.contentAt? q = none)
    {i : Nat} {track : Track} {c : ByteArray} (hi : t.tracks[i]? = some track)
    (hread : s.files.read track.path = .ok c) :
    ∃ path p, a.paths[i]? = some path ∧ (placedFiles env t s).locate path = .ok p ∧
      ((∃ d, s'.files.read path = .ok d) ↔
        ∀ y ∈ removedSources env t s, (placedFiles env t s).locate y false ≠ .ok p) ∧
      ((∃ d, s'.files.read path = .ok d) →
        ¬ (placedFiles env t s).CopiedTo ((made env t s).drop (i + 1)) p →
          s'.files.read path = .ok (rewrittenBy env t s (writes env t s) p c)) ∧
      (Alone (placedFiles env t s) a.paths i p →
        ¬ (placedFiles env t s).CopiedTo ((made env t s).drop (i + 1)) p ∧
          rewrittenBy env t s (writes env t s) p =
            Retags.written (s.tags.retagged path) (ownFields env t s i)) := by
  obtain ⟨claimed, tagged, hplaced, hwritten, hremoved, hfiles, hpaths⟩ := apply_ok_files hnew h
  have hr := hwritten.retags
  have hsources := hplaced.sources
  rw [destinations_sources] at hsources
  obtain ⟨x, hx, hsource⟩ : ∃ x, (made env t s)[i]? = some x ∧ x.source = track.path := by
    have := congrArg (·[i]?) hsources
    simpa [hi] using this
  obtain ⟨hlt, hget⟩ := List.getElem?_eq_some_iff.mp hx
  have hsplit : made env t s = (made env t s).take i ++ x :: (made env t s).drop (i + 1) := by
    rw [← hget, List.getElem_cons_drop, List.take_append_drop]
  have hplaced' := hplaced
  rw [hsplit] at hplaced'
  obtain ⟨p, d, hp, hd, hsame⟩ := hplaced'.delivers (by rwa [← hsplit]) (hsource ▸ hread)
  have hshape := hr.sameShape
  have hp' := hshape.locate_iff.mpr hp
  have he : tagged.contentAt? p = some (rewrittenBy env t s (writes env t s) p d) := by
    rw [hr.content, hd]
    rfl
  have hiff := (hshape.plain hplain).read_iff hremoved hp' he
  simp only [ne_eq, hshape.locate_iff] at hiff
  refine ⟨x.dest, p, by simp [hpaths, hx], hp, by rw [hfiles]; exact hiff, ?_, fun halone => ?_⟩
  · rintro ⟨e, hread'⟩ hlater
    rw [hfiles] at hread' ⊢
    rw [hread', ← hsame hlater]
    exact (read_of_removeFiles hread').symm.trans (read_ok.mpr ⟨p, hp', he⟩)
  · rw [hpaths] at halone
    refine ⟨?_, rewrittenBy_alone hx hp halone⟩
    rintro ⟨y, hy, _, hl⟩
    obtain ⟨j, hj⟩ := List.getElem?_of_mem hy
    rw [List.getElem?_drop] at hj
    exact halone (i + 1 + j) y.dest (by omega) (by simp [hj]) hl

/-- Direct destinations in a tree without links get copies only where no file was. -/
theorem made_fresh (hl : s.files.NoLinks) (hw : s.files.WellFormed)
    (hd : s.files.AllDirect (destinations env (t.resolvedTracks (t.chosen.getD .asIs))))
    (hq : (placedFiles env t s).CopiedTo (made env t s) q) : s.files.contentAt? q = none := by
  rcases htransfer : s.trying (transfer env t (t.resolvedTracks (t.chosen.getD .asIs))) with
    ⟨e | xs, u⟩
  · obtain ⟨x, hx, -⟩ := hq
    simp [made, transfersMade, htransfer, Except.toOption] at hx
  · obtain ⟨-, -, claimed, hplaced⟩ := transfer_ok htransfer
    rw [made_eq htransfer, placedFiles_eq htransfer] at hq
    simp [contentAt?, (hplaced.fresh hw hl hd hq).1]

/-- Two tracks with the same content, one of them at the place that the other is to have. -/
def crossingTask : Task :=
  { key := "in", isAlbum := true, state := .applying, chosen := some .asIs
    tracks := [{ path := ⟨"in/A.flac"⟩, title := some "B", album := some "X" },
      { path := ⟨"lib/B.flac"⟩, title := some "C", album := some "X" }] }

def crossingSession : Session :=
  { files := { nodes := [(["in"], .directory), (["in", "A.flac"], .file "one".toUTF8),
      (["lib"], .directory), (["lib", "B.flac"], .file "one".toUTF8)] } }

/-- The paths that an attempt tells. -/
def toldPaths : Except ApplyFailure Applied → Option (List FilePath)
  | .ok a => some a.paths
  | .error _ => none

theorem exists_of_toldPaths {r : Except ApplyFailure Applied} {paths : List FilePath}
    (h : toldPaths r = some paths) : ∃ a, r = .ok a ∧ a.paths = paths := by
  cases r with
  | ok a => exact ⟨a, rfl, Option.some.inj h⟩
  | error e => cases h

theorem crossing_paths : toldPaths (crossingSession.trying
    (apply (titleLibrary .move) crossingTask)).1 = some [⟨"lib/B.flac"⟩, ⟨"lib/C.flac"⟩] := by
  decide +kernel

theorem crossing_noLinks : crossingSession.files.NoLinks :=
  noLinks_of_nodes (by decide)

theorem crossing_placed_noLinks :
    (placedFiles (titleLibrary .move) crossingTask crossingSession).NoLinks :=
  noLinks_of_nodes (by decide +kernel)

/-- The path of the second track keeps its file. -/
theorem apply_ok_paths_crossing : ∃ a s',
    crossingSession.trying (apply (titleLibrary .move) crossingTask) = (.ok a, s') ∧
      ∃ p, (placedFiles (titleLibrary .move) crossingTask crossingSession).locate ⟨"lib/C.flac"⟩ =
          .ok p ∧
        ((∃ d, s'.files.read ⟨"lib/C.flac"⟩ = .ok d) ↔
          ∀ y ∈ removedSources (titleLibrary .move) crossingTask crossingSession,
            (placedFiles (titleLibrary .move) crossingTask crossingSession).locate y false ≠
              .ok p) := by
  obtain ⟨a, ha, hpaths⟩ := exists_of_toldPaths crossing_paths
  have hw : crossingSession.files.WellFormed := .of_nodes (by decide) rfl
  have hd : crossingSession.files.AllDirect (destinations (titleLibrary .move)
      (crossingTask.resolvedTracks (crossingTask.chosen.getD .asIs))) :=
    allDirect_of_not_climbs hw (by decide)
  have hnew : .catalogCommit ∉
      (titleLibrary .move).journal.completedSteps crossingTask.key := by decide
  have htrack : crossingTask.tracks[1]? =
      some { path := ⟨"lib/B.flac"⟩, title := some "C", album := some "X" } := rfl
  have hread : crossingSession.files.read ⟨"lib/B.flac"⟩ = .ok "one".toUTF8 :=
    toOption_eq_some.mp (by decide)
  obtain ⟨path, p, hpath, hp, hiff, -⟩ := apply_ok_paths hnew (Prod.ext ha rfl)
    (crossing_placed_noLinks.plain _) (fun q hq => made_fresh crossing_noLinks hw hd hq) htrack hread
  obtain rfl : ⟨"lib/C.flac"⟩ = path := by simpa [hpaths] using hpath
  exact ⟨a, _, Prod.ext ha rfl, p, hp, hiff⟩

/-- The path of the first track leads nowhere: its file was the source of the second. -/
theorem moved_path_not_kept :
    ¬ ∀ (env : Environment) (t : Task) (s s' : Session) (a : Applied),
      .catalogCommit ∉ env.journal.completedSteps t.key → t.state = .applying →
      env.config.fileStrategy ≠ .reference → s.trying (apply env t) = (.ok a, s') →
      ∀ (i : Nat) (track : Track) (path : FilePath) (c : ByteArray), t.tracks[i]? = some track →
        a.paths[i]? = some path → s.files.read track.path = .ok c →
          ∃ d, s'.files.read path = .ok d := by
  intro h
  obtain ⟨a, ha, hpaths⟩ := exists_of_toldPaths crossing_paths
  obtain ⟨d, hd⟩ := h (titleLibrary .move) crossingTask crossingSession _ a (by decide) rfl
    (by decide) (Prod.ext ha rfl) 0 _ ⟨"lib/B.flac"⟩ "one".toUTF8 rfl (by simp [hpaths])
    (toOption_eq_some.mp (by decide))
  have hnone : ((crossingSession.trying (apply (titleLibrary .move) crossingTask)).2.files.read
    ⟨"lib/B.flac"⟩).toOption = none := by decide +kernel
  simp [hd, Except.toOption] at hnone

end Session
end MusicImport
