import MusicImport.Proofs.Session.Reporting
import MusicImport.Proofs.Session.Retrying
import MusicImport.Proofs.Session.Sharing

/-! What observers are told of the attempts at a group. An attempt tells of the rows that it commits once it has come
to its end. One that cannot remove the sources behind its commit tells nothing, and the attempt that finishes it
later knows neither the entries nor the files any more. -/
namespace MusicImport

/-- The observer who is told of an import, and what it is told. -/
def Event.announcement? : Event → Option (String × ImportEvent)
  | .imported observer event => some (observer, event)
  | _ => none

namespace Session

variable {s s' : Session} {env : Environment} {t : Task} {choice : Chosen} {time : Timestamp}

/-- What all observers are told of an import, in the order in which they were registered. -/
def announcement (env : Environment) (t : Task) (entries : List EntryId) (paths : List FilePath) :
    List (String × ImportEvent) :=
  env.observers.map (·, importEvent t (t.chosen.getD .asIs) entries paths)

/-- What observers are told between two sessions. -/
abbrev Announces (s : Session) (told : List (String × ImportEvent)) (s' : Session) : Prop :=
  Logs Event.announcement? s told s'

/-- Observers are told nothing. -/
abbrev Untold (s s' : Session) : Prop := Announces s [] s'

theorem untold_applies (env : Environment) : Applies env Untold where
  toCalls := Logs.calls _ env
  writes path fields _ := ⟨[.wrote path fields], rfl, rfl⟩
  sets _ _ _ _ := .of_log rfl

theorem notify_announces (env : Environment) (event : ImportEvent) (observers : List String) (s : Session) :
    Announces s (observers.map (·, event)) (s.doing (notify env event observers)).2 := by
  induction observers generalizing s with
  | nil => exact .of_log rfl
  | cons observer rest ih =>
    have hfirst : Announces s [(observer, event)]
        (s.doing (do record (.imported observer event); enter env .onImport)).2 :=
      ⟨[.imported observer event], rfl, rfl⟩
    exact hfirst.trans (ih _)

/-- Removing sources is what can fail behind a commit. -/
theorem finishMove_failure {completed : List ApplyStep} {paths : List FilePath} {e : ApplyFailure}
    (h : s.trying (finishMove env t completed paths) = (.error e, s')) :
    ∃ f, e.failure = .apply t.key .removeSources none (.io f) := by
  unfold finishMove at h
  split at h
  · obtain h | ⟨_, u, -, h⟩ := trying_bind_error.mp h
    · obtain ⟨f, hf, rfl⟩ := trying_adapt_error.mp h
      simp only [Session.removeSources, trying_bind, trying_get] at hf
      rcases hr : s.files.removeSources paths with ⟨_ | g, files⟩
      · simp [hr] at hf
      · simp only [hr, trying_throw, trying_set, Prod.mk.injEq, Except.error.injEq] at hf
        exact ⟨g, hf.1.symm⟩
    · simp at h
  · simp at h

/-- The rows that an attempt commits, under the final paths of its files. -/
structure WroteFiles (env : Environment) (t : Task) (s : Session) (entries : List EntryId)
    (paths : List FilePath) (c : Catalog) : Prop where
  wrote : ∃ rows, Wrote t s.catalog entries rows c ∧ rows.map (·.track.path) = paths
  paths : paths = (made env t s).map (·.dest)

/-- What an attempt does, and what observers are told of it. -/
inductive Attempted (env : Environment) (t : Task) (s : Session) : Except ApplyFailure Applied → Session → Prop
  | announced {a : Applied} {s' : Session} (hcommits : Commits env t s)
      (hwrote : WroteFiles env t s a.entries a.paths s'.catalog)
      (htold : Announces s (announcement env t a.entries a.paths) s') : Attempted env t s (.ok a) s'
  | interrupted {e : ApplyFailure} {s' : Session} {entries : List EntryId} {paths : List FilePath}
      (hcommits : Commits env t s) (hwrote : WroteFiles env t s entries paths s'.catalog)
      (hmove : env.config.fileStrategy = .move)
      (hfailure : ∃ f, e.failure = .apply t.key .removeSources none (.io f)) (htold : Untold s s') :
      Attempted env t s (.error e) s'
  | finished {a : Applied} {s' : Session} (hknown : .catalogCommit ∈ env.journal.completedSteps t.key)
      (hcatalog : s'.catalog = s.catalog) (htold : Announces s (announcement env t [] []) s') :
      Attempted env t s (.ok a) s'
  | failed {e : ApplyFailure} {s' : Session} (hnone : ¬ Commits env t s)
      (hsteps : .catalogCommit ∈ e.completed → .catalogCommit ∈ env.journal.completedSteps t.key)
      (hcatalog : s'.catalog = s.catalog) (htold : Untold s s') : Attempted env t s (.error e) s'

/-- Rows are committed after transfers and tag writes, which leave the catalog alone. -/
theorem commitRows_wroteFiles {previous : List ApplyStep} {xs : List Transfer} {u v w : Session}
    {entries : List EntryId}
    (htransfer : s.trying (transfer env t (t.resolvedTracks (t.chosen.getD .asIs))) = (.ok xs, u))
    (hretag : u.trying (retag env t (t.chosen.getD .asIs) previous xs) = (.ok (), v))
    (hcommit : v.trying (commitRows env t (t.chosen.getD .asIs)
      (placedTracks (t.resolvedTracks (t.chosen.getD .asIs)) xs)) = (.ok entries, w)) :
    WroteFiles env t s entries (xs.map (·.dest)) w.catalog ∧ Untold s w := by
  have hu := (transfer_ok htransfer).1.catalog
  have hv := (retag_ok hretag).1.catalog
  obtain ⟨_, _, hrows⟩ := commitRows_rows hcommit
  obtain ⟨rows, hwrote, htracks⟩ := writeRows_wrote hrows
  rw [hv, hu] at hwrote
  have hpaths := Catalog.paths_of_stored htracks
  rw [placedTracks_paths (Nat.le_of_eq (transfer_length htransfer))] at hpaths
  have huntold := untold_applies env
  refine ⟨⟨⟨rows, hwrote, hpaths⟩, by rw [made_eq htransfer]⟩, ?_⟩
  exact huntold.steady.trans ((huntold.transfer t _).result htransfer) (huntold.steady.trans
    ((huntold.retag t _ _ xs).result hretag) ((huntold.commitRows t _ _).result hcommit))

theorem apply_attempted {r : Except ApplyFailure Applied} (h : s.trying (apply env t) = (r, s')) :
    Attempted env t s r s' := by
  have huntold := untold_applies env
  by_cases hknown : .catalogCommit ∈ env.journal.completedSteps t.key
  · have hcatalog := (apply_committed hknown h).1.catalog
    unfold apply at h
    dsimp only at h
    rw [if_pos (by simpa using hknown)] at h
    cases r with
    | ok a =>
      obtain ⟨u, hmove, rfl, -⟩ := finishCommitted_notified h
      exact .finished hknown hcatalog
        (((huntold.finishMove t _ _).result hmove).trans (notify_announces env _ _ u))
    | error e =>
      exact .failed (fun hcommits => hcommits.1 hknown) (fun _ => hknown) hcatalog
        ((huntold.finishMove t _ _).result (finishCommitted_error h))
  have hrun := h
  rw [apply_first hknown] at h
  have commits (hsteps : .catalogCommit ∈ stepsBehind r) : Commits env t s := ⟨hknown, by rwa [hrun]⟩
  cases r with
  | ok a =>
    obtain ⟨xs, u, v, w, z, htransfer, hretag, hcommit, hmove, rfl, hpaths⟩ := applyAll_notified h
    obtain ⟨hwrote, hbefore⟩ := commitRows_wroteFiles htransfer hretag hcommit
    have htold := notify_announces env (importEvent t (t.chosen.getD .asIs) a.entries a.paths) env.observers z
    have hcatalog := (notify_consults env (importEvent t (t.chosen.getD .asIs) a.entries a.paths)
      env.observers z).catalog.trans (finishMove_catalog hmove)
    refine .announced (commits (finishMove_steps hmove (by decide))) ?_
      ((hbefore.trans ((huntold.finishMove t _ _).result hmove)).trans htold)
    rw [hcatalog, hpaths]
    exact hwrote
  | error e =>
    -- up to the commit nothing is in the catalog, and the steps that are left tell of no commit
    have failed (hsteps : .catalogCommit ∉ e.completed) (htold : Untold s s') :
        Attempted env t s (.error e) s' := by
      obtain ⟨hcommits, -⟩ | ⟨hnone, hcatalog⟩ := apply_catalog env t s
      · exact absurd (by simpa [hrun, stepsBehind] using hcommits.2) hsteps
      · exact .failed hnone (fun hmem => absurd hmem hsteps) (by rwa [hrun] at hcatalog) htold
    obtain ⟨htransfer, hsteps⟩ | ⟨xs, u, htransfer, h⟩ := applyAll_error h
    · exact failed (by simp [hsteps]) ((huntold.transfer t _).result htransfer)
    have hu : Untold s u := (huntold.transfer t _).result htransfer
    obtain h | ⟨v, hretag, ⟨f, w, hcommit, rfl, hsteps⟩ | ⟨entries, w, hcommit, hmove⟩⟩ := h
    · exact failed (retag_steps h) (hu.trans ((huntold.retag t _ _ xs).result h))
    · have hw : Untold u w :=
        ((huntold.retag t _ _ xs).result hretag).trans ((huntold.commitRows t _ _).result hcommit)
      refine failed ?_ (hu.trans (hw.trans (.of_log rfl)))
      rw [hsteps]
      split <;> decide
    · obtain ⟨hwrote, hbefore⟩ := commitRows_wroteFiles htransfer hretag hcommit
      obtain ⟨hstrategy, -, -, hsteps⟩ := finishMove_error hmove
      rw [← finishMove_catalog hmove] at hwrote
      exact .interrupted (commits (by simp [stepsBehind, hsteps])) hwrote hstrategy (finishMove_failure hmove)
        (hbefore.trans ((huntold.finishMove t _ _).result hmove))

/-- An attempt at a group, and whether the journal brings its outcome to the next one. -/
structure Trial where
  env : Environment
  task : Task
  start : Session
  journaled : Bool

namespace Trial

def result (x : Trial) : Except ApplyFailure Applied := (x.start.trying (apply x.env x.task)).1

def final (x : Trial) : Session := (x.start.trying (apply x.env x.task)).2

/-- The steps that the journal tells it of. -/
def known (x : Trial) : List ApplyStep := x.env.journal.completedSteps x.task.key

/-- The steps that it leaves to a later attempt. -/
def left (x : Trial) : List ApplyStep := (failedSteps x.result).getD []

/-- It comes to its end. -/
def Ends (x : Trial) : Prop := ∃ a, x.result = .ok a

/-- It commits rows. -/
def Commits (x : Trial) : Prop := Session.Commits x.env x.task x.start

instance (x : Trial) : Decidable x.Commits := inferInstanceAs (Decidable (_ ∧ _))

/-- What observers are told in it. -/
def told (x : Trial) : List (String × ImportEvent) :=
  (x.final.log.drop x.start.log.length).filterMap Event.announcement?

def announcement (x : Trial) (entries : List EntryId) (paths : List FilePath) : List (String × ImportEvent) :=
  Session.announcement x.env x.task entries paths

/-- What an attempt leaves is what the journal keeps of its report. -/
theorem left_journaled (x : Trial) (hstate : x.task.state = .applying) (hlook : x.start.look = x.start)
    (hlive : x.start.aborted = false) (time : Timestamp) :
    ((x.start.doing (applyResolved x.env x.task)).1.journalEntry time).completedSteps = x.left := by
  have happlying : (x.task.state != .applying) = false := by simp [hstate]
  have hmarked (state : TaskState) (hbecomes : TaskState.applying.canBecome state = true) :
      (x.task.marked state).report.outcome = state.outcome := marked_outcome (by rwa [hstate])
  unfold applyResolved left result
  simp only [happlying, doing_bind, doing_isAborted, hlook, hlive, doing_run, Bool.false_eq_true, if_false]
  rcases x.start.trying (apply x.env x.task) with ⟨e | a, u⟩
  · simp [TaskReport.journalEntry, failedSteps, hmarked .failed rfl, TaskState.outcome]
  · simp [TaskReport.journalEntry, failedSteps, hmarked .done rfl, TaskState.outcome]

end Trial

/-- Attempts at a group, one after the other, with the steps that the journal has of it in the end. Between two of
them anything may happen to the files and the catalog, and the journal may get lost or a line that tells of no
steps. -/
inductive History (key : GroupKey) : List Trial → List ApplyStep → Prop
  | start : History key [] []
  | trial {xs : List Trial} {steps : List ApplyStep} {x : Trial} (before : History key xs steps)
      (hkey : x.task.key = key) (hknown : x.known = steps) :
      History key (xs ++ [x]) (if x.journaled then x.left else steps)
  | forgotten {xs : List Trial} {steps : List ApplyStep} (before : History key xs steps) : History key xs []

/-- The last commit of some attempts was not told: its own attempt failed behind it, and after that there were only
attempts that committed nothing and failed as well, or did not get into the journal. -/
def EndsUntold (xs : List Trial) : Prop :=
  ∃ earlier x between, xs = earlier ++ x :: between ∧ x.Commits ∧ ¬ x.Ends ∧
    ∀ y ∈ between, ¬ y.Commits ∧ (¬ y.Ends ∨ y.journaled = false)

namespace Trial

variable {x : Trial}

theorem attempted (x : Trial) : Attempted x.env x.task x.start x.result x.final := apply_attempted rfl

theorem told_eq {told : List (String × ImportEvent)} (h : Announces x.start told x.final) : x.told = told := by
  obtain ⟨events, hlog, rfl⟩ := h
  simp [Trial.told, hlog]

/-- What was recorded before an attempt stays. -/
theorem log_grows (x : Trial) : x.start.log <+: x.final.log := by
  have logged {told : List (String × ImportEvent)} (h : Announces x.start told x.final) :
      x.start.log <+: x.final.log := by
    obtain ⟨events, hlog, -⟩ := h
    exact ⟨events, hlog.symm⟩
  have hattempted := x.attempted
  generalize x.result = r at hattempted
  cases hattempted with
  | announced _ _ htold => exact logged htold
  | interrupted _ _ _ _ htold => exact logged htold
  | finished _ _ htold => exact logged htold
  | failed _ _ _ htold => exact logged htold

/-- An attempt that knows of a commit commits nothing. -/
theorem not_commits (h : .catalogCommit ∈ x.known) : ¬ x.Commits := fun hcommits => hcommits.1 h

theorem left_of_ends (h : x.Ends) : x.left = [] := by
  obtain ⟨a, ha⟩ := h
  simp [left, ha, failedSteps]

/-- Who leaves a commit has committed it and failed behind it, or has known of it. -/
theorem commits_of_left (h : .catalogCommit ∈ x.left) :
    ¬ x.Ends ∧ (x.Commits ∨ .catalogCommit ∈ x.known) := by
  have hends : ¬ x.Ends := fun hends => by simp [left_of_ends hends] at h
  refine ⟨hends, ?_⟩
  have hattempted := x.attempted
  unfold left at h
  generalize x.result = r at h hattempted
  cases hattempted with
  | announced hcommits _ _ => exact .inl hcommits
  | interrupted hcommits _ _ _ _ => exact .inl hcommits
  | finished hknown _ _ => exact .inr hknown
  | failed _ hsteps _ _ => exact .inr (hsteps h)

end Trial

/-- A commit that the journal tells of is one that was not told to the observers. -/
theorem History.endsUntold {key : GroupKey} {xs : List Trial} {steps : List ApplyStep} (h : History key xs steps)
    (hcommitted : .catalogCommit ∈ steps) : EndsUntold xs := by
  induction h with
  | start => cases hcommitted
  | forgotten _ _ => cases hcommitted
  | @trial xs steps x before hkey hknown ih =>
    -- once there is a commit to know of, the next attempt commits nothing itself
    have after (hsteps : .catalogCommit ∈ steps) (hquiet : ¬ x.Ends ∨ x.journaled = false) :
        EndsUntold (xs ++ [x]) := by
      obtain ⟨earlier, y, between, rfl, hcommits, hends, hbetween⟩ := ih hsteps
      refine ⟨earlier, y, between ++ [x], by simp, hcommits, hends, List.forall_mem_append.mpr ⟨hbetween, ?_⟩⟩
      rw [List.forall_mem_singleton]
      exact ⟨Trial.not_commits (hknown ▸ hsteps), hquiet⟩
    cases hjournaled : x.journaled with
    | false =>
      rw [hjournaled] at hcommitted
      exact after hcommitted (.inr hjournaled)
    | true =>
      rw [hjournaled] at hcommitted
      obtain ⟨hends, hcommits | hknows⟩ := Trial.commits_of_left hcommitted
      · exact ⟨xs, x, [], rfl, hcommits, hends, by simp⟩
      · exact after (hknown ▸ hknows) (.inl hends)

/-- Every attempt of a history comes after a history. -/
theorem History.before {key : GroupKey} {xs before after : List Trial} {x : Trial} {steps : List ApplyStep}
    (h : History key xs steps) (hx : xs = before ++ x :: after) : History key before x.known := by
  induction h generalizing after with
  | start => simp at hx
  | forgotten _ ih => exact ih hx
  | @trial xs steps y hbefore hkey hknown ih =>
    obtain rfl | ⟨init, last, rfl⟩ := List.eq_nil_or_concat after
    · obtain ⟨rfl, hlast⟩ := List.append_inj' hx rfl
      obtain rfl := List.singleton_inj.mp hlast
      rwa [hknown]
    · rw [List.concat_eq_append, ← List.cons_append, ← List.append_assoc] at hx
      obtain ⟨rfl, -⟩ := List.append_inj' hx rfl
      exact ih rfl

/-- However the attempts at a group go, and whatever happens between them: one that commits writes rows, and tells
just their entries and their final paths to every observer in its turn, once, if it comes to its end; it does not
if it is to move files and fails to remove their sources, and then it tells nothing. One that commits nothing
leaves the catalog alone and tells nothing if it fails. If it comes to its end it tells of neither entries nor
paths, and it comes after a commit that was not told. -/
theorem History.announces {key : GroupKey} {xs before after : List Trial} {x : Trial} {steps : List ApplyStep}
    (h : History key xs steps) (hx : xs = before ++ x :: after) :
    x.start.log <+: x.final.log ∧
    (x.Commits → ∃ entries paths, WroteFiles x.env x.task x.start entries paths x.final.catalog ∧
      (x.Ends → x.told = x.announcement entries paths) ∧
      (∀ e, x.result = .error e → x.told = [] ∧ x.env.config.fileStrategy = .move ∧
        ∃ f, e.failure = .apply x.task.key .removeSources none (.io f))) ∧
    (¬ x.Commits → x.final.catalog = x.start.catalog ∧ (¬ x.Ends → x.told = []) ∧
      (x.Ends → x.told = x.announcement [] [] ∧ EndsUntold before)) := by
  refine ⟨x.log_grows, ?_⟩
  have hattempted := x.attempted
  have hbefore := h.before hx
  cases hresult : x.result with
  | ok a =>
    rw [hresult] at hattempted
    have hends : x.Ends := ⟨a, hresult⟩
    cases hattempted with
    | announced hcommits hwrote htold =>
      refine ⟨fun _ => ⟨a.entries, a.paths, hwrote, fun _ => x.told_eq htold, fun e he => by cases he⟩, ?_⟩
      exact fun hnone => absurd hcommits hnone
    | finished hknown hcatalog htold =>
      refine ⟨fun hcommits => absurd hcommits (Trial.not_commits hknown), fun _ => ⟨hcatalog, ?_, ?_⟩⟩
      · exact fun hfails => absurd hends hfails
      · exact fun _ => ⟨x.told_eq htold, hbefore.endsUntold hknown⟩
  | error e =>
    rw [hresult] at hattempted
    have hfails : ¬ x.Ends := by
      rintro ⟨a, ha⟩
      rw [hresult] at ha
      cases ha
    cases hattempted with
    | interrupted hcommits hwrote hmove hfailure htold =>
      refine ⟨fun _ => ⟨_, _, hwrote, fun hends => absurd hends hfails, ?_⟩, fun hnone => absurd hcommits hnone⟩
      rintro _ ⟨⟩
      exact ⟨x.told_eq htold, hmove, hfailure⟩
    | failed hnone _ hcatalog htold =>
      refine ⟨fun hcommits => absurd hcommits hnone, fun _ => ⟨hcatalog, fun _ => x.told_eq htold, ?_⟩⟩
      exact fun hends => absurd hends hfails

/-- A file that is to be moved, in a directory that cannot be changed. -/
def lockedMove : Trial where
  env := { titleLibrary .move with observers := ["first", "second"] }
  task := { partlyInPlace with tracks := [{ path := ⟨"in/b.flac"⟩, title := some "02", album := some "X" }] }
  start := lockedSession
  journaled := true

/-- The same, with the directory unlocked. -/
def unlockedMove : Trial :=
  { lockedMove with env := { lockedMove.env with journal := resumedLibrary.journal }, start := unlocked lockedMove.final }

theorem lockedMove_history : History "in" [lockedMove, unlockedMove] unlockedMove.left := by
  have hfirst : History "in" [lockedMove] lockedMove.left := .trial .start rfl (by decide)
  exact .trial hfirst rfl (by decide +kernel)

theorem lockedMove_commits : lockedMove.Commits := by decide +kernel

theorem unlockedMove_ends : unlockedMove.Ends := by
  obtain ⟨a, ha, -⟩ := exists_of_toldPaths (by decide +kernel : toldPaths unlockedMove.result = some [])
  exact ⟨a, ha⟩

theorem announces_locked : lockedMove.told = [] ∧
    unlockedMove.told = unlockedMove.announcement [] [] ∧ EndsUntold [lockedMove] := by
  have hfirst : [lockedMove, unlockedMove] = [] ++ lockedMove :: [unlockedMove] := rfl
  have hsecond : [lockedMove, unlockedMove] = [lockedMove] ++ unlockedMove :: [] := rfl
  have hfirst := History.announces lockedMove_history hfirst
  have hsecond := History.announces lockedMove_history hsecond
  obtain ⟨_, _, -, -, hfails⟩ := hfirst.2.1 lockedMove_commits
  obtain ⟨e, he, -⟩ := exists_of_failedSteps
    (by decide +kernel : failedSteps lockedMove.result = some committedSteps)
  have hknown : .catalogCommit ∈ unlockedMove.known := by decide
  exact ⟨(hfails e he).1, (hsecond.2.2 (Trial.not_commits hknown)).2.2 unlockedMove_ends⟩

/-- The rows of a commit are announced by no attempt, although the last one comes to its end. -/
theorem commit_not_announced : ¬ ∀ (key : GroupKey) (xs : List Trial) (x : Trial) (steps : List ApplyStep),
    History key (xs ++ [x]) steps → x.Ends → ∀ y ∈ xs ++ [x], y.Commits →
      ∃ entries paths, WroteFiles y.env y.task y.start entries paths y.final.catalog ∧
        ∃ z ∈ xs ++ [x], z.told = y.announcement entries paths := by
  intro h
  obtain ⟨entries, paths, ⟨⟨rows, hwrote, -⟩, -⟩, z, hz, htold⟩ := h "in" [lockedMove] unlockedMove _
    lockedMove_history unlockedMove_ends lockedMove (.head _) lockedMove_commits
  obtain ⟨row, rfl, -⟩ := hwrote.album rfl
  have hentries : z.told.map (·.2.entries) = [[.album row.id], [.album row.id]] := by
    rw [htold]
    rfl
  have hnone : ∀ z ∈ [lockedMove, unlockedMove], ∀ entries ∈ z.told.map (·.2.entries), entries = [] := by
    decide +kernel
  have hempty := hnone z hz [.album row.id] (by rw [hentries]; exact .head _)
  cases hempty

end Session
end MusicImport
