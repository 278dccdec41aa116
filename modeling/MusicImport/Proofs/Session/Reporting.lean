import MusicImport.Proofs.Journal.Interrupted
import MusicImport.Proofs.Session.Resolving
import MusicImport.Proofs.Session.Stages
import MusicImport.Session.Import

/-! Finishing the tasks of a group and entering its report. Every group has one report under its own
key, also one that was split; the report of a split group tells no steps. -/
namespace MusicImport

/-- A failed report that tells of a commit. -/
def TaskReport.TellsCommit (r : TaskReport) : Prop :=
  r.outcome = .failed ∧ .catalogCommit ∈ r.completedSteps

instance (r : TaskReport) : Decidable r.TellsCommit := inferInstanceAs (Decidable (_ ∧ _))

/-- The journal takes over what a report tells. -/
theorem TaskReport.journalEntry_tells (report : TaskReport) (time : Timestamp) :
    ((report.journalEntry time).outcome = .failed ∧
      .catalogCommit ∈ (report.journalEntry time).completedSteps) ↔ report.TellsCommit := by
  unfold TaskReport.journalEntry TaskReport.TellsCommit
  by_cases hfailed : report.outcome = .failed <;> simp [hfailed]

namespace Session

variable {s s' : Session} {env : Environment} {time : Timestamp} {t : Task} {l l' : Ledger}

theorem marked_key (t : Task) (state : TaskState) : (t.marked state).key = t.key :=
  (akin_transition t state).key

theorem marked_outcome {state : TaskState} (h : t.state.canBecome state = true) :
    (t.marked state).report.outcome = state.outcome := by
  rw [Task.marked, transition_of_canBecome h]
  rfl

theorem applyResolved_key : (s.doing (applyResolved env t)).1.key = t.key := by
  unfold applyResolved
  split
  · rfl
  rw [doing_bind, doing_isAborted]
  dsimp only
  split
  · exact marked_key t .aborted
  rw [doing_bind]
  rcases s.look.doing (apply env t).run with ⟨e | a, u⟩
  · exact marked_key t .failed
  · exact marked_key t .done

/-- The report of a task is under its key. -/
theorem finish_key (r : Resolved) : (s.doing (finish env r)).1.key = r.task.key := applyResolved_key

/-- Finishing a task whose rows are committed leaves the catalog alone and puts no question. If it
fails again, its report tells of the commit. -/
theorem finish_committed {r : Resolved} (h : Settled t r)
    (hcommitted : .catalogCommit ∈ env.journal.completedSteps t.key) :
    Works s (s.doing (finish env r)).2 ∧
      ((s.doing (finish env r)).1.outcome = .failed →
        .catalogCommit ∈ (s.doing (finish env r)).1.completedSteps) := by
  suffices happly : Works s (s.doing (applyResolved env r.task)).2 ∧
      ((s.doing (applyResolved env r.task)).1.outcome = .failed →
        .catalogCommit ∈ (s.doing (applyResolved env r.task)).1.completedSteps) from happly
  have hkey : .catalogCommit ∈ env.journal.completedSteps r.task.key := by rwa [h.akin.key]
  unfold applyResolved
  split
  next hleft =>
    refine ⟨.refl s, fun hfailed => ?_⟩
    obtain ⟨h, -⟩ | h | h := h.state <;> simp [Task.report, TaskState.outcome, h] at hfailed hleft
  next hready =>
    have hstate : r.task.state = .applying := by simpa using hready
    have hlook := (look_consults s).toWorks
    rw [doing_bind, doing_isAborted]
    dsimp only
    split
    · have houtcome : (r.task.marked .aborted).report.outcome = .aborted :=
        marked_outcome (by rw [hstate]; rfl)
      exact ⟨hlook, fun hfailed => by simp [houtcome] at hfailed⟩
    · rw [doing_bind, doing_run]
      rcases happly : s.look.trying (apply env r.task) with ⟨e | a, u⟩
      · obtain ⟨hu, -, hsteps⟩ := apply_committed hkey happly
        exact ⟨hlook.trans (hu.trans ((record_consults rfl).result rfl).toWorks), fun _ => hsteps e rfl⟩
      · obtain ⟨hu, -, -⟩ := apply_committed hkey happly
        have houtcome : (r.task.marked .done).report.outcome = .done :=
          marked_outcome (by rw [hstate]; rfl)
        exact ⟨hlook.trans hu, fun hfailed => by simp [houtcome] at hfailed⟩

theorem enterReport_works (time : Timestamp) (l : Ledger) (r : TaskReport) :
    Tries Works (enterReport time l r) := by
  intro s
  unfold enterReport
  rw [trying_bind, trying_get]
  dsimp only
  split
  · exact .refl s
  · rw [trying_bind, trying_set]
    exact ⟨rfl, id, [], by simp, by simp⟩

/-- Entering a report appends one line to the journal, which always succeeds. -/
theorem enterReport_run (time : Timestamp) (l : Ledger) (r : TaskReport) (s : Session) :
    ∃ files, l.writer.append s.files (r.journalEntry time) =
        .ok (⟨l.writer.path, l.writer.position + (r.journalEntry time).bytes.length⟩, files) ∧
      s.trying (enterReport time l r) =
        (.ok { l with
          writer := ⟨l.writer.path, l.writer.position + (r.journalEntry time).bytes.length⟩
          reports := l.reports ++ [r] }, { s with files }) := by
  obtain ⟨files, happend⟩ := l.writer.append_ok s.files (r.journalEntry time)
  refine ⟨files, happend, ?_⟩
  unfold enterReport
  rw [trying_bind, trying_get]
  dsimp only
  rw [happend]
  rfl

theorem enterReport_ok {r : TaskReport} (h : s.trying (enterReport time l r) = (.ok l', s')) :
    l'.reports = l.reports ++ [r] ∧ l'.pending = l.pending := by
  obtain ⟨files, -, hrun⟩ := enterReport_run time l r s
  rw [hrun] at h
  cases h
  exact ⟨rfl, rfl⟩

/-- A task that is no part is reported by itself. -/
theorem finishAll_whole {r : Resolved} (horigin : r.task.origin = none) :
    s.trying (finishAll env time l [r]) =
      (s.doing (finish env r)).2.trying (enterReport time l (s.doing (finish env r)).1) := by
  unfold finishAll
  rw [trying_bind, trying_liftM]
  simp only [horigin, finishAll, bind_pure]

/-- Finishes settled tasks without entering anything. -/
def finishes (env : Environment) : List Resolved → Act (List TaskReport)
  | [] => return []
  | r :: rest => do
    let report ← finish env r
    return report :: (← finishes env rest)

/-- The parts of a group, from one of them on, end in one report, which puts together the reports of
all of them. -/
theorem finishAll_parts {k : GroupKey} {i m : Nat} {rs : List Resolved} {before : List TaskReport}
    (horigin : rs.map (·.task.origin) = (List.range' i (m + 1)).map fun j => some ⟨k, j, i + m + 1⟩)
    (hpending : l.pending.getD ⟨k, []⟩ = ⟨k, before⟩) :
    s.trying (finishAll env time l rs) = (s.doing (finishes env rs)).2.trying
      (enterReport time { l with pending := none }
        (TaskReport.aggregate k (before ++ (s.doing (finishes env rs)).1))) := by
  -- On the number of parts that follow: only the last one, with none behind it, enters a report.
  induction m generalizing i l rs s before with
  | zero =>
    obtain ⟨r, rest, rfl, hr, hrest⟩ := List.map_eq_cons_iff.mp horigin
    obtain rfl : rest = [] := by simpa using hrest
    unfold finishAll
    rw [trying_bind, trying_liftM]
    simp only [hr, enterChild, hpending, finishAll, bind_pure]
    rw [if_pos (by simp)]
    rfl
  | succ m ih =>
    rw [List.range'_succ, List.map_cons] at horigin
    obtain ⟨r, rest, rfl, hr, hrest⟩ := List.map_eq_cons_iff.mp horigin
    have hcount : i + (m + 1) + 1 = i + 1 + m + 1 := by omega
    rw [hcount] at hrest
    unfold finishAll
    rw [trying_bind, trying_liftM]
    simp only [hr, enterChild, hpending]
    rw [if_neg (by omega), pure_bind, ih hrest rfl, List.append_assoc]
    rfl

/-- A group's own task before anything was done about it. -/
structure Fresh (t : Task) : Prop where
  state : t.state = .grouped
  chosen : t.chosen = none
  origin : t.origin = none
  tracks : t.tracks ≠ []

theorem Fresh.opened (h : Fresh t) : Open t := ⟨.inl h.state, h.chosen⟩

theorem task?_fresh {plan : GroupPlan} {tracks : List Track} (h : plan.task? tracks = some t) :
    Fresh t := by
  cases tracks with
  | nil => cases h
  | cons first rest =>
    obtain rfl := Option.some.inj h
    refine ⟨rfl, rfl, rfl, ?_⟩
    dsimp only
    split <;> exact List.cons_ne_nil _ _

/-- The first search is a look at the abort signal, and a search. -/
theorem searchGrouped_does {R : Session → Session → Prop} (hR : Steady R) (hlook : Does R isAborted)
    (hsearch : ∀ t, Tries R (search env t none)) (t : Task) : Does R (searchGrouped env t) := by
  refine hR.does_bind hlook fun aborted => ?_
  split
  · exact hR.does_pure _
  · refine hR.does_bind (hsearch t).run fun r => ?_
    cases r <;> exact hR.does_pure _

/-- The first search leaves a task to be settled. -/
theorem searchGrouped_open (env : Environment) (h : Fresh t) :
    Consults s (s.doing (searchGrouped env t)).2 ∧ t.Stays (s.doing (searchGrouped env t)).1 ∧
      Open (s.doing (searchGrouped env t)).1 := by
  have hnext : t.state.canBecome .searching = true := by
    rw [h.state]
    rfl
  unfold searchGrouped
  rw [doing_bind, doing_isAborted]
  dsimp only
  split
  · exact ⟨look_consults s, .refl t, h.opened⟩
  rw [doing_bind, doing_run]
  rcases hr : s.look.trying (search env t none) with ⟨b | u, v⟩
  · exact ((search_yields env t none hnext).error hr).elim
  · have hu := (search_yields env t none hnext).ok hr
    have hv := (look_consults s).trans ((search_consults env t none).result hr)
    exact ⟨hv, hu.toStays, hu.opened h.opened⟩

theorem settleGroup_from (env : Environment) (h : Fresh t) :
    ResolvedFrom env t (s.doing (settleGroup env t)).1 := by
  obtain ⟨-, hstays, hopen⟩ := searchGrouped_open (s := s) env h
  exact (resolve_from env hopen.state).of_stays hstays

/-- A group comes out whole if it is not split. -/
def Whole (rs : List Resolved) : Prop := ∀ r ∈ rs, r.task.origin = none

instance (rs : List Resolved) : Decidable (Whole rs) := inferInstanceAs (Decidable (∀ _ ∈ _, _))

/-- The report of a group from the reports of what it was resolved as. -/
def groupReport (key : GroupKey) (rs : List Resolved) : List TaskReport → TaskReport
  | [report] => if Whole rs then report else TaskReport.aggregate key [report]
  | reports => TaskReport.aggregate key reports

theorem groupReport_parts {key : GroupKey} {rs : List Resolved} (h : ¬ Whole rs)
    (reports : List TaskReport) : groupReport key rs reports = TaskReport.aggregate key reports := by
  unfold groupReport
  split
  · exact if_neg h
  · rfl

theorem split_origin (t : Task) : t.split.map (·.origin) =
    (List.range t.tracks.length).map fun i => some ⟨t.key, i, t.tracks.length⟩ := by
  apply List.ext_getElem <;> simp [Task.split]

theorem parts_origin {parts : List Task} {rs : List Resolved} (h : List.Forall₂ (Ended env) parts rs) :
    rs.map (·.task.origin) = parts.map (·.origin) := by
  induction h with
  | nil => rfl
  | cons hr _ ih => rw [List.map_cons, List.map_cons, hr.akin.origin, ih]

/-- What a group with tracks is resolved as: one task that is no part, or parts, of which there is at
least one. -/
theorem ResolvedFrom.shape {rs : List Resolved} (h : ResolvedFrom env t rs) (horigin : t.origin = none)
    (htracks : t.tracks ≠ []) :
    (∃ r, rs = [r] ∧ Ended env t r ∧ r.task.origin = none ∧ Whole rs) ∨
      ¬ Whole rs ∧ ∃ m, rs.map (·.task.origin) =
        (List.range' 0 (m + 1)).map fun i => some ⟨t.key, i, 0 + m + 1⟩ := by
  obtain ⟨r, rfl, hr⟩ | ⟨-, t', hakin, hparts⟩ := h
  · have hr' : r.task.origin = none := hr.akin.origin.trans horigin
    exact .inl ⟨r, rfl, hr, hr', by simpa [Whole] using hr'⟩
  · have hgrown := hakin.grown
    have hsome := List.length_pos_iff.mpr htracks
    obtain ⟨m, hm⟩ : ∃ m, t'.tracks.length = 0 + m + 1 := ⟨t'.tracks.length - 1, by omega⟩
    have horigins := parts_origin hparts
    rw [split_origin, hm, hakin.key, List.range_eq_range', Nat.zero_add] at horigins
    refine .inr ⟨fun hwhole => ?_, m, by simpa using horigins⟩
    rw [List.range'_succ, List.map_cons] at horigins
    obtain ⟨r, rest, rfl, hr, -⟩ := List.map_eq_cons_iff.mp horigins
    rw [hwhole r (.head _)] at hr
    cases hr

/-- What a group is resolved as ends in one report. -/
theorem finishAll_group {rs : List Resolved} (h : ResolvedFrom env t rs) (horigin : t.origin = none)
    (htracks : t.tracks ≠ []) (hpending : l.pending = none) :
    s.trying (finishAll env time l rs) = (s.doing (finishes env rs)).2.trying
      (enterReport time l (groupReport t.key rs (s.doing (finishes env rs)).1)) := by
  obtain ⟨r, rfl, -, hr, hwhole⟩ | ⟨hparts, m, horigins⟩ := h.shape horigin htracks
  · rw [finishAll_whole hr]
    have hreport : groupReport t.key [r] [(s.doing (finish env r)).1] = (s.doing (finish env r)).1 :=
      if_pos hwhole
    exact congrArg (fun report => (s.doing (finish env r)).2.trying (enterReport time l report))
      hreport.symm
  · rw [groupReport_parts hparts, finishAll_parts horigins (by rw [hpending]; rfl), List.nil_append]
    have hsame : { l with pending := none } = l := by rw [← hpending]
    rw [hsame]

/-- The report of a group is under its key, and that of a split group tells no steps. -/
theorem groupReport_of {rs : List Resolved} (h : ResolvedFrom env t rs) (horigin : t.origin = none)
    (htracks : t.tracks ≠ []) :
    (groupReport t.key rs (s.doing (finishes env rs)).1).key = t.key ∧
      (¬ Whole rs → (groupReport t.key rs (s.doing (finishes env rs)).1).completedSteps = []) := by
  obtain ⟨r, rfl, hended, -, hwhole⟩ | ⟨hparts, -⟩ := h.shape horigin htracks
  · have hreport : groupReport t.key [r] [(s.doing (finish env r)).1] = (s.doing (finish env r)).1 :=
      if_pos hwhole
    refine ⟨?_, fun hparts => absurd hwhole hparts⟩
    show (groupReport t.key [r] [(s.doing (finish env r)).1]).key = t.key
    rw [hreport, finish_key, hended.akin.key]
  · rw [groupReport_parts hparts]
    exact ⟨rfl, fun _ => rfl⟩

/-- A group brings one report under its key. The report of a split group tells no steps. -/
theorem importTask_ok (ht : Fresh t) (hpending : l.pending = none)
    (h : s.trying (importTask env time l t) = (.ok l', s')) :
    l'.pending = none ∧ ∃ report, l'.reports = l.reports ++ [report] ∧ report.key = t.key ∧
      (¬ Whole (s.doing (settleGroup env t)).1 → report.completedSteps = []) := by
  have hfrom := settleGroup_from (s := s) env ht
  unfold importTask at h
  rw [trying_bind, trying_liftM] at h
  dsimp only at h
  rw [finishAll_group hfrom ht.origin ht.tracks hpending] at h
  obtain ⟨hreports, hnone⟩ := enterReport_ok h
  obtain ⟨hkey, hsteps⟩ := groupReport_of (s := (s.doing (settleGroup env t)).2) hfrom ht.origin ht.tracks
  exact ⟨hnone.trans hpending, _, hreports, hkey, hsteps⟩

/-- A group whose rows are committed, and which is not split, gets no rows again, and nobody is asked
about duplicates of it. If it fails again, its report tells of the commit. -/
theorem importTask_committed (time : Timestamp) (l : Ledger) (ht : Fresh t)
    (hcommitted : .catalogCommit ∈ env.journal.completedSteps t.key)
    (hwhole : Whole (s.doing (settleGroup env t)).1) :
    Works s (s.trying (importTask env time l t)).2 ∧
      ∀ l', (s.trying (importTask env time l t)).1 = .ok l' →
        ∀ reports, l'.reports = l.reports ++ reports →
          ∀ r ∈ reports, r.outcome = .failed → .catalogCommit ∈ r.completedSteps := by
  obtain ⟨hsearch, hstays, hopen⟩ := searchGrouped_open (s := s) env ht
  have hcommitted' : .catalogCommit ∈
      env.journal.completedSteps (s.doing (searchGrouped env t)).1.key := by rwa [hstays.key]
  obtain ⟨hresolve, howes⟩ := resolve_committed hcommitted' hopen hwhole
  have hsettle : Works s (s.doing (settleGroup env t)).2 := (hsearch.trans hresolve).toWorks
  have howes : ∀ r ∈ (s.doing (settleGroup env t)).1, Settled (s.doing (searchGrouped env t)).1 r := howes
  unfold importTask
  rw [trying_bind, trying_liftM]
  dsimp only
  obtain ⟨r, hrs, -, -, -⟩ | ⟨hparts, -⟩ := (settleGroup_from env ht).shape ht.origin ht.tracks
  · rw [hrs] at howes hwhole ⊢
    obtain ⟨hfinish, htells⟩ := finish_committed (s := (s.doing (settleGroup env t)).2)
      (howes r (.head _)) hcommitted'
    rw [finishAll_whole (hwhole r (.head _))]
    refine ⟨hsettle.trans (hfinish.trans (enterReport_works time l _ _)), ?_⟩
    intro l' hl' reports hreports report hmem
    obtain ⟨hentered, -⟩ := enterReport_ok (Prod.ext hl' rfl)
    rw [hentered, List.append_cancel_left_eq] at hreports
    subst hreports
    obtain rfl := List.mem_singleton.mp hmem
    exact htells
  · exact absurd hwhole hparts

end Session
end MusicImport
