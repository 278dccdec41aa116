import MusicImport.Proofs.Session.Sweeping

/-! Imports that come to their end. Whatever happens to its groups, an import has no fatal error once its
journal is open and its groups are found. -/
namespace MusicImport

open JournalWriter (openAt)
open Session (Sweeps Works prepare importBelow)

variable {env : Environment} {root : FilePath} {time : Timestamp} {s s' : Session}

/-- The groups below a root, as an import finds them once it has opened its journal. -/
def Session.plansBelow (s : Session) (env : Environment) (root : FilePath) :
    Except ImportFailure (List GroupPlan) :=
  (openAt s.files env.config.journalPath).2.discover root env.config.singletons false

theorem Environment.withJournal_ok_iff {t : FileTree} {env' : Environment} :
    env.withJournal t = .ok env' ↔
      ∃ found, JournalSnapshot.load t env.config.journalPath = .ok found ∧
        { env with journal := found } = env' := by
  unfold Environment.withJournal
  cases JournalSnapshot.load t env.config.journalPath <;> simp [Bind.bind, Except.bind, pure, Except.pure]

namespace Session

/-- An import is ready where the journal can be loaded and opened and the groups are found. Only the
journal has been touched then. -/
theorem prepare_ok_iff {a : Agenda} :
    s.trying (prepare env root) = (.ok a, s') ↔ ∃ found w plans,
      JournalSnapshot.load s.files env.config.journalPath = .ok found ∧
      (openAt s.files env.config.journalPath).1 = .ok w ∧ s.plansBelow env root = .ok plans ∧
      { env := { env with journal := found }, writer := w
        plans := plans.filter fun p =>
          !(settledGroups { env with journal := found }).contains p.key } = a ∧
      { s with files := (openAt s.files env.config.journalPath).2 } = s' := by
  unfold prepare plansBelow
  simp only [trying_bind_ok, trying_get, trying_set, trying_liftExcept, trying_pure, Prod.mk.injEq,
    Except.ok.injEq, ↓existsAndEq, true_and, and_true, Environment.withJournal_ok_iff]
  constructor
  · rintro ⟨found, hload, _, w, hopened, plans, hplans, rfl, rfl⟩
    exact ⟨found, w, plans, hload, hopened, hplans, rfl, rfl⟩
  · rintro ⟨found, w, plans, hload, hopened, hplans, rfl, rfl⟩
    exact ⟨found, hload, (), w, hopened, plans, hplans, rfl, rfl⟩

/-- Getting ready changes nothing but files. -/
theorem prepare_files (env : Environment) (root : FilePath) (s : Session) :
    ∃ files, (s.trying (prepare env root)).2 = { s with files } := by
  unfold prepare
  simp only [trying_bind, trying_get, trying_liftExcept, trying_set, trying_pure]
  cases env.withJournal s.files with
  | error e => exact ⟨s.files, rfl⟩
  | ok env =>
    dsimp only
    cases (openAt s.files env.config.journalPath).1 with
    | error e => exact ⟨_, rfl⟩
    | ok w =>
      dsimp only
      split
      next hplans =>
        obtain ⟨-, rfl⟩ := Prod.mk.inj hplans
        exact ⟨_, rfl⟩
      next hplans =>
        obtain ⟨-, rfl⟩ := Prod.mk.inj hplans
        exact ⟨_, rfl⟩

end Session

/-- An import below a root that came to its end, with the groups that it visited. -/
structure FinishedImport (env : Environment) (root : FilePath) (s : Session) extends ImportRun where
  visits : List Visit
  ledger : Ledger
  ended : Session
  ready : s.trying (prepare env root) = (.ok agenda, start)
  sweeps : Sweeps agenda.env time { writer := agenda.writer } start agenda.plans visits ledger ended

namespace FinishedImport

/-- What the import tells in the end, with a last look at the abort signal. -/
def summary (i : FinishedImport env root s) : ImportSummary := ⟨i.ledger.reports, i.ended.look.aborted⟩

theorem run (i : FinishedImport env root s) :
    s.trying (importBelow env i.time root) = (.ok i.summary, i.ended.look) := by
  have hgroups := i.sweeps.run rfl
  unfold importBelow
  rw [Session.trying_bind, i.ready]
  dsimp only
  rw [Session.trying_bind, hgroups]
  rfl

/-- An import comes to its end once it is ready. -/
theorem exists_of_ready {a : Agenda} {u : Session} (time : Timestamp)
    (h : s.trying (prepare env root) = (.ok a, u)) :
    ∃ i : FinishedImport env root s, i.toImportRun = ⟨a, time, u⟩ := by
  obtain ⟨vs, l, v, hsweeps⟩ := Session.exists_sweeps a.env time { writer := a.writer } u a.plans
  exact ⟨⟨⟨a, time, u⟩, vs, l, v, h, hsweeps⟩, rfl⟩

theorem reports (i : FinishedImport env root s) :
    i.summary.reports = i.visits.filterMap (·.report?) := by
  have hreports := i.sweeps.reports
  rwa [List.nil_append] at hreports

theorem reports_takings (i : FinishedImport env root s) :
    i.summary.reports = i.takings.map fun x => (x.booking i.agenda.env).report := by
  obtain ⟨hbookings, -, -⟩ := i.sweeps.takings rfl
  have hreports := congrArg (List.map Booking.report) hbookings
  rw [List.map_filterMap, List.map_map] at hreports
  exact i.reports.trans hreports

/-- The groups that are reported are those that could be read when the import came to them. -/
theorem keys (i : FinishedImport env root s) :
    i.summary.reports.map (·.key) = (i.visits.filter (·.tracks ≠ [])).map (·.plan.key) := by
  rw [i.reports, Visit.Sound.reports i.sweeps.sound]

theorem keys_sublist (i : FinishedImport env root s) :
    (i.summary.reports.map (·.key)).Sublist (i.agenda.plans.map (·.key)) := by
  rw [i.keys]
  have hvisits : (i.visits.filter (·.tracks ≠ [])).map (·.plan) |>.Sublist i.agenda.plans :=
    (List.filter_sublist.map _).trans i.sweeps.visits.1.sublist
  simpa [Function.comp_def] using hvisits.map (·.key)

theorem visits_all (i : FinishedImport env root s) :
    i.visits.map (·.plan) = i.agenda.plans ∨ i.summary.aborted = true :=
  i.sweeps.visits.2.imp_right Session.look_aborted

/-- The run that an import is adds up to its reports and to the catalog that it leaves, and goes by the
journal as it was found. -/
theorem toImportRun_sound (i : FinishedImport env root s) :
    Works s i.start ∧ (∃ found, JournalSnapshot.load s.files env.config.journalPath = .ok found ∧
      i.agenda.env = { env with journal := found }) ∧
    i.summary.reports = i.toImportRun.reports ∧ i.ended.look.catalog = i.toImportRun.catalog := by
  obtain ⟨found, w, plans, hload, -, -, hagenda, hstart⟩ := Session.prepare_ok_iff.mp i.ready
  obtain ⟨-, hreports, hcatalog⟩ := i.sweeps.takings rfl
  refine ⟨?_, ⟨found, hload, by rw [← hagenda]⟩, i.reports.trans hreports, ?_⟩
  · rw [← hstart]
    exact ⟨rfl, id, [], by simp, by simp⟩
  · exact (Session.look_consults i.ended).catalog.trans hcatalog

end FinishedImport

/-- An import ends with an error before it takes up a group, with nothing changed but files, or it comes
to its end. -/
theorem Session.run_ends (env : Environment) (time : Timestamp) (root : FilePath) (s : Session) :
    (∃ e files, s.trying (run env time root) = (.error e, { s with files })) ∨
      ∃ i : FinishedImport env root s, i.time = time ∧
        s.trying (run env time root) = (.ok i.summary, i.ended.look) := by
  unfold run
  rw [trying_bind, trying_liftExcept]
  cases env.config.validate with
  | error e => exact .inl ⟨e, s.files, rfl⟩
  | ok _ =>
    dsimp only
    rcases hprepare : s.trying (prepare env root) with ⟨e | a, u⟩
    · obtain ⟨files, hfiles⟩ := prepare_files env root s
      rw [hprepare] at hfiles
      unfold importBelow
      rw [trying_bind, hprepare]
      exact .inl ⟨e, files, by rw [← hfiles]⟩
    · obtain ⟨i, hi⟩ := FinishedImport.exists_of_ready time hprepare
      obtain rfl : i.time = time := congrArg ImportRun.time hi
      exact .inr ⟨i, rfl, i.run⟩

end MusicImport
