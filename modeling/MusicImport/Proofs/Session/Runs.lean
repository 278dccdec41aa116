import MusicImport.Proofs.Session.Reporting

/-! A run as the groups that it takes up, one after the other, each with its task, the report that it
brings, and the session before and after. -/
namespace MusicImport

/-- What taking up a group did: the task of the group, what the task was settled as, and the ledger
and the session before and after. -/
structure Taking where
  task : Task
  ledger : Ledger
  before : Session
  settled : List Resolved
  result : Except ImportFailure Ledger
  after : Session

namespace Taking

/-- The report that was entered. -/
def report? (x : Taking) : Option TaskReport :=
  match x.result with
  | .ok l => l.reports[x.ledger.reports.length]?
  | .error _ => none

/-- The group was not split. -/
def Whole (x : Taking) : Prop := Session.Whole x.settled

instance (x : Taking) : Decidable x.Whole := inferInstanceAs (Decidable (Session.Whole _))

end Taking

namespace Session

variable {s s' : Session} {env : Environment} {time : Timestamp} {l l' : Ledger} {x : Taking}

/-- Takes up a group. -/
def takeUp (env : Environment) (time : Timestamp) (l : Ledger) (t : Task) (s : Session) : Taking :=
  let (result, after) := s.trying (importTask env time l t)
  { task := t, ledger := l, before := s, settled := (s.doing (settleGroup env t)).1, result, after }

/-- The groups that an import takes up. -/
def takings (env : Environment) (time : Timestamp) :
    Ledger → List GroupPlan → Session → List Taking
  | _, [], _ => []
  | l, plan :: rest, s =>
    let (tracks, u) := s.doing (readGroup env plan.files)
    match plan.task? tracks with
    | none => takings env time l rest u
    | some t =>
      if u.look.aborted then []
      else
        let x := takeUp env time l t u.look
        x :: match x.result with
          | .ok l' => takings env time l' rest x.after
          | .error _ => []

theorem readGroup_consults (env : Environment) (files : List FilePath) :
    Does Consults (readGroup env files) := by
  induction files with
  | nil => exact consults_steady.does_pure _
  | cons p rest ih =>
    have hread : Tries Consults (readTags env p) :=
      consults_steady.tries_bind (attempt_consults env _) fun _ =>
        consults_steady.tries_bind consults_steady.tries_get fun _ => consults_steady.tries_except _
    exact consults_steady.does_bind hread.run fun _ =>
      consults_steady.does_bind ih fun _ => consults_steady.does_pure _

/-- Between groups no report waits, so each is taken up afresh. -/
theorem exists_of_mem_takings {plans : List GroupPlan} (hpending : l.pending = none)
    (h : x ∈ takings env time l plans s) :
    ∃ l₁ t u, Fresh t ∧ l₁.pending = none ∧ x = takeUp env time l₁ t u := by
  induction plans generalizing l s with
  | nil => cases h
  | cons plan rest ih =>
    unfold takings at h
    dsimp only at h
    split at h
    next => exact ih hpending h
    next t htask =>
      split at h
      · cases h
      obtain rfl | h := List.mem_cons.mp h
      · exact ⟨l, t, _, task?_fresh htask, hpending, rfl⟩
      · split at h
        next l' hresult =>
          have himport : (s.doing (readGroup env plan.files)).2.look.trying (importTask env time l t) =
            (.ok l', _) := Prod.ext hresult rfl
          exact ih (importTask_ok (task?_fresh htask) hpending himport).1 h
        · cases h

/-- A group that was taken up adds its report to the others. -/
theorem takeUp_reports {t : Task} (env : Environment) (time : Timestamp) (ht : Fresh t)
    (hpending : l.pending = none) ⦃l' : Ledger⦄ (h : (takeUp env time l t s).result = .ok l') :
    l'.pending = none ∧ l'.reports = l.reports ++ (takeUp env time l t s).report?.toList := by
  have himport : s.trying (importTask env time l t) = (.ok l', (takeUp env time l t s).after) :=
    Prod.ext h rfl
  obtain ⟨hnone, report, hreports, -⟩ := importTask_ok ht hpending himport
  have hledger : (takeUp env time l t s).ledger = l := rfl
  have hreport : (takeUp env time l t s).report? = some report := by
    simp [Taking.report?, h, hledger, hreports]
  exact ⟨hnone, by rw [hreport]; exact hreports⟩

/-- The catalog after groups were taken up: the one that the last of them left. -/
def catalogAfter (c : Catalog) (xs : List Taking) : Catalog := xs.foldl (fun _ x => x.after.catalog) c

end Session

/-- An import that has its groups before it: its agenda, the time of its journal lines, and the session
that it starts in. -/
structure ImportRun where
  agenda : Agenda
  time : Timestamp
  start : Session

namespace ImportRun

open Session (Works)

variable {r : ImportRun}

/-- The groups that it takes up. -/
def takings (r : ImportRun) : List Taking :=
  Session.takings r.agenda.env r.time { writer := r.agenda.writer } r.agenda.plans r.start

/-- The reports that it enters. -/
def reports (r : ImportRun) : List TaskReport := r.takings.filterMap (·.report?)

/-- The catalog that it leaves. -/
def catalog (r : ImportRun) : Catalog := Session.catalogAfter r.start.catalog r.takings

/-- How a run takes up each of its groups. -/
theorem exists_of_mem_takings {x : Taking} (hx : x ∈ r.takings) :
    ∃ l t s, Session.Fresh t ∧ l.pending = none ∧ x = Session.takeUp r.agenda.env r.time l t s :=
  Session.exists_of_mem_takings rfl hx

theorem report_of_taking {x : Taking} {report : TaskReport} (hx : x ∈ r.takings)
    (h : x.report? = some report) :
    report.key = x.task.key ∧ (¬ x.Whole → report.completedSteps = []) := by
  obtain ⟨l, t, s, ht, hpending, rfl⟩ := exists_of_mem_takings hx
  cases hresult : (Session.takeUp r.agenda.env r.time l t s).result with
  | error e => simp [Taking.report?, hresult] at h
  | ok l' =>
    have himport : s.trying (Session.importTask r.agenda.env r.time l t) =
      (.ok l', (Session.takeUp r.agenda.env r.time l t s).after) := Prod.ext hresult rfl
    obtain ⟨-, entered, hentered, hkey, hsteps⟩ := Session.importTask_ok ht hpending himport
    have hadded := (Session.takeUp_reports _ _ ht hpending hresult).2
    rw [hentered, List.append_cancel_left_eq, h] at hadded
    obtain rfl : entered = report := by simpa using hadded
    exact ⟨hkey, hsteps⟩

/-- Taking up a group whose rows the journal has as committed, without splitting it, leaves the
catalog alone and puts no question about duplicates. If it fails, its report tells of the commit. -/
theorem taking_committed {x : Taking} (hx : x ∈ r.takings)
    (hcommitted : .catalogCommit ∈ r.agenda.env.journal.completedSteps x.task.key)
    (hwhole : x.Whole) :
    Works x.before x.after ∧ ∀ report, x.report? = some report → report.outcome = .failed →
      .catalogCommit ∈ report.completedSteps := by
  obtain ⟨l, t, s, ht, hpending, rfl⟩ := exists_of_mem_takings hx
  obtain ⟨hworks, htells⟩ :=
    Session.importTask_committed r.time l ht hcommitted hwhole
  refine ⟨hworks, fun report hreport => ?_⟩
  cases hresult : (Session.takeUp r.agenda.env r.time l t s).result with
  | error e => simp [Taking.report?, hresult] at hreport
  | ok l' =>
    have hadded := (Session.takeUp_reports _ _ ht hpending hresult).2
    exact htells l' hresult _ hadded report (by simp [hreport])

end ImportRun
end MusicImport
