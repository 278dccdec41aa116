import MusicImport.Proofs.Session.Stages

/-! A failure before the rows are committed. The copies are taken back, so that the files are those
from before; what a tag write has put into a file that was there already stays. -/
namespace MusicImport
namespace Session

open FileTree

variable {s s' : Session} {env : Environment} {t : Task} {e : ApplyFailure} {q : Place}

/-- The files are those from before, with another content where something was written into them. -/
structure Restored (t t' : FileTree) (g : Place → ByteArray → ByteArray) : Prop
    extends Extends t t' where
  content : ∀ q, t'.contentAt? q = (t.contentAt? q).map (g q)

theorem Restored.of_same {t t' : FileTree} (hext : Extends t t')
    (h : ∀ q, t'.contentAt? q = t.contentAt? q) : Restored t t' fun _ c => c :=
  ⟨hext, fun q => by rw [h, Option.map_id']⟩

/-- The files are as before exactly if what was written was there already. -/
theorem Restored.same_iff {t t' : FileTree} {g : Place → ByteArray → ByteArray}
    (h : Restored t t' g) : (∀ q, t'.contentAt? q = t.contentAt? q) ↔
      ∀ q c, t.contentAt? q = some c → g q c = c := by
  refine forall_congr' fun q => ?_
  rw [h.content]
  cases t.contentAt? q <;> simp

section

variable {before placed v : FileTree} {strategy : FileStrategy} {verify : Bool} {claimed : List FilePath}
  {pairs : List (FilePath × FilePath)} {xs : List Transfer} (hw : before.WellFormed) (hl : before.NoLinks)
  (hd : before.AllDirect pairs)

include hw hl hd

/-- A placement that fails takes the copies before it back. What it leaves besides is a copy that broke off. -/
theorem placeAll_left {f : FilePath × ImportFailure}
    (h : before.placeAll strategy verify [] claimed pairs = (.error f, v)) :
    Restored before v (fun _ c => c) ∨ f.2 = .io .device ∧ ∃ dest target q,
      (f.1, dest) ∈ pairs ∧ Tried dest target ∧ Torn before v f.1 target q := by
  obtain ⟨first, dest, rest, ys, u, w, claimed', rfl, hplaced, hfail, rfl⟩ := placeAll_error h
  have hcopies := hplaced.copies
  have hext := hcopies.toExtends
  have hfirst : before.AllDirect first := fun pair hp => hd pair (List.mem_append_left _ hp)
  have hdest : ∀ p, Tried dest p → u.Direct p := fun p hp =>
    (hd _ (List.mem_append_right _ (.head _)) p hp).of_extends hext
  obtain hadds | ⟨hdevice, target, q, htried, htorn⟩ :=
    place_error hfail (hcopies.wellFormed hw) (hext.noLinks hl) hdest
  · have hfresh := fun q (hq : u.CopiedTo ys q) => hplaced.fresh hw hl hfirst hq
    exact .inl (.of_same (hcopies.undo hadds.toExtends hl hfresh).1 fun q =>
      hplaced.undone hw hl hfirst hadds.toExtends (hadds.content q))
  · exact .inr ⟨hdevice, dest, target, q, by simp, htried, htorn.undone hplaced hw hl hfirst⟩

/-- Taking the copies back after something was written into files. -/
theorem written_restored {g : Place → ByteArray → ByteArray}
    (hplaced : PlacedAll strategy before claimed pairs xs placed) (hshape : SameShape placed v)
    (hcontent : ∀ q, v.contentAt? q = (placed.contentAt? q).map (g q)) : Restored before (v.undo xs) g := by
  have hcopies := hplaced.copies
  have hfresh := fun q (hq : placed.CopiedTo xs q) => hplaced.fresh hw hl hd hq
  obtain ⟨hundo, hundone⟩ := hcopies.undo hshape.there hl hfresh
  refine ⟨hundo, fun q => ?_⟩
  rw [hundone q fun c hc => ?_]
  · split
    next hn => simp [contentAt?, hn]
    next hn => rw [hcontent, hcopies.content q fun hc => hn (hfresh q hc).1]
  · obtain ⟨d, hd⟩ := hshape.back.file q c (contentAt?_eq_some.mp hc)
    exact ⟨d, contentAt?_eq_some.mpr hd⟩

end

/-- The transfers that an attempt makes, and the session after them. -/
def transfersMade (env : Environment) (t : Task) (s : Session) :
    Except ImportFailure (List Transfer) × Session :=
  s.trying (transfer env t (t.resolvedTracks (t.chosen.getD .asIs)))

/-- The transfers of an attempt that gets as far as that. -/
def made (env : Environment) (t : Task) (s : Session) : List Transfer :=
  (transfersMade env t s).1.toOption.getD []

/-- The files after the transfers of an attempt. -/
def placedFiles (env : Environment) (t : Task) (s : Session) : FileTree :=
  (transfersMade env t s).2.files

section

variable {u : Session} {xs : List Transfer}
  (h : s.trying (transfer env t (t.resolvedTracks (t.chosen.getD .asIs))) = (.ok xs, u))

include h

theorem made_eq : made env t s = xs := by simp [made, transfersMade, h, Except.toOption]

theorem placedFiles_eq : placedFiles env t s = u.files := by simp [placedFiles, transfersMade, h]

end

/-- The tag writes that an attempt is to make. -/
def writes (env : Environment) (t : Task) (s : Session) : List (Transfer × TagFields) :=
  tagWrites env t (t.chosen.getD .asIs) (env.journal.completedSteps t.key) (made env t s)

/-- What tag writes of an attempt make of the content of a file. -/
def rewrittenBy (env : Environment) (t : Task) (s : Session) (l : List (Transfer × TagFields))
    (q : Place) : ByteArray → ByteArray :=
  Retags.rewritten s.tags.retagged (placedFiles env t s) q l

/-- What tag writes of an attempt leave of the content of a file, if one more has failed. -/
def leftBy (env : Environment) (t : Task) (s : Session) (done failed : List (Transfer × TagFields))
    (q : Place) (c : ByteArray) : ByteArray :=
  Retags.rewritten s.tags.spoiled (placedFiles env t s) q failed (rewrittenBy env t s done q c)

/-- What is left in the files of an attempt that was taken back: the tag writes before the one that failed and
what this one has left, or all of them if none has. -/
structure TakenBack (env : Environment) (t : Task) (s : Session) (e : ApplyFailure) (files : FileTree)
    (done failed : List (Transfer × TagFields)) : Prop where
  within : done ++ failed <+: writes env t s
  once : failed.length ≤ 1
  whole : (∀ path f, e.failure ≠ .apply t.key .writeTags path f) → done = writes env t s ∧ failed = []
  restored : Restored s.files files (leftBy env t s done failed)

/-- A failed attempt that has not committed its rows leaves the catalog as it was and takes back what it did to
the files, except for the tag writes that it made to files that were there before: those before the one that
failed, and what this one left, or else all of them. So the files are as before exactly where these writes
changed nothing. Where it was a copy that failed, no tags were written, but if the copy broke off, the part of
it that is there stays. -/
theorem apply_error_restores (hl : s.files.NoLinks) (hw : s.files.WellFormed)
    (hd : s.files.AllDirect (destinations env (t.resolvedTracks (t.chosen.getD .asIs))))
    (h : s.trying (apply env t) = (.error e, s')) (hc : .catalogCommit ∉ e.completed) :
    s'.catalog = s.catalog ∧
      ((∃ done failed, TakenBack env t s e s'.files done failed ∧
          ((∀ q, s'.files.contentAt? q = s.files.contentAt? q) ↔
            ∀ q c, s.files.contentAt? q = some c → leftBy env t s done failed q c = c)) ∨
        ∃ source dest target q, e.failure = .apply t.key .transferFiles (some source) (.io .device) ∧
          (source, dest) ∈ destinations env (t.resolvedTracks (t.chosen.getD .asIs)) ∧ Tried dest target ∧
          Torn s.files s'.files source target q) := by
  have back {done failed : List (Transfer × TagFields)} (h : TakenBack env t s e s'.files done failed) :
      ∃ done failed, TakenBack env t s e s'.files done failed ∧
        ((∀ q, s'.files.contentAt? q = s.files.contentAt? q) ↔
          ∀ q c, s.files.contentAt? q = some c → leftBy env t s done failed q c = c) :=
    ⟨done, failed, h, h.restored.same_iff⟩
  unfold apply at h
  dsimp only at h
  split at h
  · obtain ⟨-, -, -, hcompleted⟩ := finishMove_error (finishCommitted_error h)
    simp [hcompleted] at hc
  obtain ⟨h, -⟩ | ⟨xs, u, htransfer, h⟩ := applyAll_error h
  · -- without transfers there is nothing to write to
    have hnone : writes env t s = [] := by
      simp [writes, tagWrites, made, transfersMade, h, Except.toOption]
    have unwritten (hrestored : Restored s.files s'.files fun _ c => c) :
        TakenBack env t s e s'.files [] [] :=
      ⟨List.nil_prefix, Nat.zero_le 1, fun _ => ⟨hnone.symm, rfl⟩, hrestored⟩
    refine ⟨(transfer_error h).1.catalog, ?_⟩
    obtain ⟨-, hfiles | ⟨claimed, f, hplace, hf⟩⟩ := transfer_error h
    · exact .inl (back (unwritten (hfiles ▸ .of_same (.refl _) fun _ => rfl)))
    · obtain hrestored | ⟨hdevice, dest, target, q, hpair, htried, htorn⟩ := placeAll_left hw hl hd hplace
      · exact .inl (back (unwritten hrestored))
      · exact .inr ⟨f.1, dest, target, q, by rw [hf, hdevice], hpair, htried, htorn⟩
  obtain ⟨hworks, htags, claimed, hplaced⟩ := transfer_ok htransfer
  have hwrites : tagWrites env t (t.chosen.getD .asIs) (env.journal.completedSteps t.key) xs =
      writes env t s := by
    rw [writes, made_eq htransfer]
  have undone {v w : FileTree} {done failed : List (Transfer × TagFields)}
      (hr : Retags u.tags.retagged u.files done w) (hfailed : Retags u.tags.spoiled w failed v) :
      Restored s.files (v.undo xs) (leftBy env t s done failed) := by
    refine written_restored hw hl hd hplaced (hr.sameShape.trans hfailed.sameShape) fun q => ?_
    rw [hfailed.content, hr.content, Option.map_map, Retags.rewritten_congr hr.sameShape]
    unfold leftBy rewrittenBy
    rw [placedFiles_eq htransfer, ← htags]
    rfl
  obtain h | ⟨v, hretag, ⟨f, w, hcommit, rfl, -⟩ | ⟨ids, w, -, hmove⟩⟩ := h
  · obtain ⟨v, done, failed, hv, ⟨hwithin, honce, w, hr, hfailed⟩, rfl, path, f, hf⟩ := retag_error h
    exact ⟨hv.catalog.trans hworks.catalog, .inl (back ⟨hwrites ▸ hwithin, honce,
      fun hother => absurd hf (hother _ _), undone hr hfailed⟩)⟩
  · obtain ⟨hv, hr⟩ := retag_ok hretag
    have hcons := commitRows_error hcommit
    rw [hwrites, ← hcons.files] at hr
    have htaken : TakenBack env t s e (w.files.undo xs) (writes env t s) [] :=
      ⟨by simp, Nat.zero_le 1, fun _ => ⟨rfl, rfl⟩, undone hr.retags (.nil _)⟩
    exact ⟨hcons.catalog.trans (hv.catalog.trans hworks.catalog), .inl (back htaken)⟩
  · obtain ⟨-, -, -, hcompleted⟩ := finishMove_error hmove
    simp [hcompleted] at hc

/-- A recording whose file is to get the title of a file in the library with the same content. -/
def reusingTask : Task :=
  { key := "in/a.flac", tracks := [{ path := ⟨"in/a.flac"⟩, title := some "A" }], isAlbum := false
    state := .applying
    chosen := some (.matched
      { candidate := .track { id := "r", title := "B", album := some "X" }
        alignment := {}, distance := ⟨0, 0, []⟩, isPartial := false }) }

/-- Tag writes leave a mark in the file. -/
def reusingSession : Session :=
  { files := { nodes := [(["in"], .directory), (["in", "a.flac"], .file "audio".toUTF8),
      (["lib"], .directory), (["lib", "B.flac"], .file "audio".toUTF8)] }
    tags := .records { stamp := some "+TAGGED" } }

/-- The library without its first commit. -/
def failingCommit (strategy : FileStrategy) : Environment :=
  { titleLibrary strategy with faults := [⟨⟨.commit, 1⟩, .storage "full"⟩] }

theorem reusing_fails : failedSteps (reusingSession.trying
    (apply (failingCommit .copy) reusingTask)).1 = some [] := by decide +kernel

theorem reusing_noLinks : reusingSession.files.NoLinks :=
  noLinks_of_nodes (by decide)

theorem reusing_wellFormed : reusingSession.files.WellFormed :=
  .of_nodes (by decide) rfl

/-- The write into the file from the library was made and stays. -/
theorem apply_error_restores_reusing : ∃ e s',
    reusingSession.trying (apply (failingCommit .copy) reusingTask) = (.error e, s') ∧
      s'.catalog = reusingSession.catalog ∧
      ∃ done failed, TakenBack (failingCommit .copy) reusingTask reusingSession e s'.files done failed := by
  obtain ⟨e, he, hc⟩ := exists_of_failedSteps reusing_fails
  have hdirect : reusingSession.files.AllDirect (destinations (failingCommit .copy)
      (reusingTask.resolvedTracks (reusingTask.chosen.getD .asIs))) :=
    allDirect_of_not_climbs reusing_wellFormed (by decide)
  obtain ⟨hcatalog, ⟨done, failed, hback, -⟩ | ⟨_, _, _, q, -, -, -, htorn⟩⟩ := apply_error_restores
    reusing_noLinks reusing_wellFormed hdirect (Prod.ext he rfl) (by simp [hc])
  · exact ⟨e, _, Prod.ext he rfl, hcatalog, done, failed, hback⟩
  · -- no file breaks off here
    obtain ⟨_, n, -, hdefect, -⟩ := htorn.part
    simp [defectAt?, reusingSession] at hdefect

/-- A failed commit leaves the mark of a tag write in a file that was in the library before. -/
theorem reused_file_not_restored :
    ¬ ∀ (env : Environment) (t : Task) (s s' : Session) (e : ApplyFailure),
      env.config.fileStrategy ≠ .reference → s.files.NoLinks → s.files.WellFormed →
      s.trying (apply env t) = (.error e, s') → .catalogCommit ∉ e.completed →
      s'.catalog = s.catalog ∧ ∀ q, s'.files.contentAt? q = s.files.contentAt? q := by
  intro h
  obtain ⟨e, he, hc⟩ := exists_of_failedSteps reusing_fails
  have hfile := (h (failingCommit .copy) reusingTask reusingSession _ e (by decide) reusing_noLinks
    reusing_wellFormed (Prod.ext he rfl) (by simp [hc])).2 ["lib", "B.flac"]
  revert hfile
  decide +kernel

end Session
end MusicImport
