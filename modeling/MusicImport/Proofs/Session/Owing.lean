import MusicImport.Proofs.Journal.Snapshot
import MusicImport.Proofs.Session.Runs

/-! Runs that share a journal and a catalog. A group whose rows were committed before an attempt
failed is known by the journal as long as its attempts go on failing. One that is aborted makes the
journal forget, and so does splitting the group. -/
namespace MusicImport
namespace ImportRun

open Session (Works)

variable {r r' first last : ImportRun} {key : GroupKey}

/-- The last taking up of a group that was reported. -/
def lastTaking? (r : ImportRun) (key : GroupKey) : Option Taking :=
  (r.takings.filter fun x => x.task.key = key && x.report?.isSome).getLast?

/-- The last report of a group. -/
def lastReport? (r : ImportRun) (key : GroupKey) : Option TaskReport :=
  (r.reports.filter (·.key = key)).getLast?

/-- A run goes on where another ended: with its catalog, and with the journal that it left. -/
structure Continues (r r' : ImportRun) : Prop where
  journal : r'.agenda.env.journal =
    r.agenda.env.journal.extend (r.reports.map (·.journalEntry r.time))
  catalog : r'.start.catalog = r.catalog

/-- The journal tells a run that the rows of a group are committed. -/
def Knows (r : ImportRun) (key : GroupKey) : Prop :=
  .catalogCommit ∈ r.agenda.env.journal.completedSteps key

/-- A run reports a group neither as done nor as skipped. -/
def Unsettled (r : ImportRun) (key : GroupKey) : Prop :=
  ∀ report ∈ r.reports, report.key = key → report.outcome ≠ .done ∧ report.outcome ≠ .skipped

/-- A run does not abort a group, nor split it. -/
def Keeps (r : ImportRun) (key : GroupKey) : Prop :=
  ∀ x, r.lastTaking? key = some x →
    x.Whole ∧ ∀ report, x.report? = some report → report.outcome ≠ .aborted

/-- Each report is under the key of its group, so the last report of a group is that of its last
taking up. -/
private theorem getLast?_reports {xs : List Taking}
    (hkeys : ∀ x ∈ xs, ∀ report, x.report? = some report → report.key = x.task.key) :
    ((xs.filterMap (·.report?)).filter (·.key = key)).getLast? =
      (xs.filter fun x => x.task.key = key && x.report?.isSome).getLast?.bind (·.report?) := by
  induction xs with
  | nil => rfl
  | cons x rest ih =>
    have ih := ih fun y hy => hkeys y (.tail _ hy)
    cases hreport : x.report? with
    | none =>
      rw [List.filterMap_cons_none hreport, List.filter_cons_of_neg (by simp [hreport]), ih]
    | some report =>
      have hkey := hkeys x (.head _) report hreport
      rw [List.filterMap_cons_some hreport]
      by_cases hx : x.task.key = key
      · rw [List.filter_cons_of_pos (by simp [hkey, hx]),
          List.filter_cons_of_pos (by simp [hx, hreport]), List.getLast?_cons, List.getLast?_cons, ih]
        -- The last taking up of the rest, if there is one, was reported.
        cases hlast : (rest.filter fun x => x.task.key = key && x.report?.isSome).getLast? with
        | none => simp [hreport]
        | some y =>
          have hy := (List.mem_filter.mp (List.mem_of_getLast? hlast)).2
          obtain ⟨later, hlater⟩ := Option.isSome_iff_exists.mp (Bool.and_eq_true_iff.mp hy).2
          simp [hlater]
      · rw [List.filter_cons_of_neg (by simp [hkey, hx]),
          List.filter_cons_of_neg (by simp [hx]), ih]

theorem lastReport?_eq (r : ImportRun) (key : GroupKey) :
    r.lastReport? key = (r.lastTaking? key).bind (·.report?) :=
  getLast?_reports fun _ hx _ hreport => (report_of_taking hx hreport).1

theorem mem_of_lastTaking? {x : Taking} (h : r.lastTaking? key = some x) :
    x ∈ r.takings ∧ x.task.key = key ∧ ∃ report, x.report? = some report ∧
      r.lastReport? key = some report := by
  obtain ⟨hx, hcond⟩ := List.mem_filter.mp (List.mem_of_getLast? h)
  obtain ⟨hkey, hsome⟩ := Bool.and_eq_true_iff.mp hcond
  obtain ⟨report, hreport⟩ := Option.isSome_iff_exists.mp hsome
  exact ⟨hx, of_decide_eq_true hkey, report, hreport, by simp [lastReport?_eq, h, hreport]⟩

/-- The next run knows of a commit from the last report of the group, or as this one did. -/
theorem Continues.knows_iff (h : Continues r r') (key : GroupKey) :
    r'.Knows key ↔ match r.lastReport? key with
      | some report => report.TellsCommit
      | none => r.Knows key := by
  have hlast : ((r.reports.map (·.journalEntry r.time)).filter (·.key = key)).getLast? =
      (r.lastReport? key).map (·.journalEntry r.time) := by
    rw [List.filter_map, List.getLast?_map]
    rfl
  unfold Knows
  rw [h.journal, JournalSnapshot.mem_completedSteps, JournalSnapshot.get?_extend, hlast]
  cases r.lastReport? key with
  | none => exact JournalSnapshot.mem_completedSteps.symm
  | some report => simp [← report.journalEntry_tells r.time]

/-- While a group is not settled, the next run knows of its commit exactly if this one keeps it. -/
theorem knows_iff_keeps (h : Continues r r') (hknows : r.Knows key) (hopen : r.Unsettled key) :
    r'.Knows key ↔ r.Keeps key := by
  rw [h.knows_iff key, lastReport?_eq]
  cases hx : r.lastTaking? key with
  | none => simpa [Keeps, hx] using hknows
  | some x =>
    obtain ⟨hmem, rfl, report, hreport, hlast⟩ := mem_of_lastTaking? hx
    have hreported : report ∈ r.reports ∧ report.key = x.task.key := by
      simpa using List.mem_filter.mp (List.mem_of_getLast? hlast)
    obtain ⟨hdone, hskipped⟩ := hopen report hreported.1 hreported.2
    have hkeeps : r.Keeps x.task.key ↔ x.Whole ∧ report.outcome ≠ .aborted := by
      simp [Keeps, hx, hreport]
    rw [hkeeps, Option.bind_some, hreport]
    constructor
    -- The report of a split group would tell no steps.
    · rintro ⟨hfailed, hsteps⟩
      refine ⟨?_, by simp [hfailed]⟩
      refine Decidable.byContradiction fun hparts => ?_
      rw [(report_of_taking hmem hreport).2 hparts] at hsteps
      cases hsteps
    -- What is neither settled nor aborted has failed once more.
    · rintro ⟨hwhole, haborted⟩
      have hfailed : report.outcome = .failed := by
        cases houtcome : report.outcome <;> simp_all
      exact ⟨hfailed, (taking_committed hmem hknows hwhole).2 report hreport hfailed⟩

/-- A run that comes after another, with runs of a kind in between. -/
inductive Reaches (P : ImportRun → Prop) (first : ImportRun) : ImportRun → Prop
  | next {r : ImportRun} (h : Continues first r) : Reaches P first r
  | later {r r' : ImportRun} (h : Reaches P first r) (hr : P r) (h' : Continues r r') :
      Reaches P first r'

/-- The last report of a group tells of a commit: the rows are committed, but not all sources could be
removed. -/
def LeavesCommitted (r : ImportRun) (key : GroupKey) : Prop :=
  ∃ report, r.lastReport? key = some report ∧ report.TellsCommit

theorem Reaches.knows (hfirst : first.LeavesCommitted key)
    (h : Reaches (fun r => r.Unsettled key ∧ r.Keeps key) first last) : last.Knows key := by
  induction h with
  | next h =>
    obtain ⟨report, hreport, htells⟩ := hfirst
    rw [h.knows_iff key, hreport]
    exact htells
  | later _ hr h' ih => exact (knows_iff_keeps h' ih hr.1).mpr hr.2

/-- What the children of a split group commit is never known: a key that no group of a run has stays
as it was. -/
theorem Continues.knows_other (h : Continues r r') (hkey : ∀ x ∈ r.takings, x.task.key ≠ key) :
    r'.Knows key ↔ r.Knows key := by
  have hnone : r.lastTaking? key = none := by
    cases hx : r.lastTaking? key with
    | none => rfl
    | some x =>
      obtain ⟨hmem, hx, -⟩ := mem_of_lastTaking? hx
      exact absurd hx (hkey x hmem)
  rw [h.knows_iff key, lastReport?_eq, hnone, Option.bind_none]

/-- Once the rows of a group are committed and a source could not be removed, later runs insert no
rows for it and put no question about duplicates of it, as long as it is neither settled, nor aborted,
nor split. That is all: a run that aborts or splits the group makes the next one forget, and what a
child of a split group commits is forgotten at once. -/
theorem no_second_commit (hfirst : first.LeavesCommitted key)
    (hruns : Reaches (fun r => r.Unsettled key ∧ r.Keeps key) first last) :
    (∀ x ∈ last.takings, x.task.key = key → x.Whole → Works x.before x.after) ∧
      (∀ r r', r.Knows key → r.Unsettled key → Continues r r' → (r'.Knows key ↔ r.Keeps key)) ∧
      ∀ r r' other, Continues r r' → (∀ x ∈ r.takings, x.task.key ≠ other) →
        (r'.Knows other ↔ r.Knows other) := by
  refine ⟨fun x hx hkey hwhole => ?_, fun r r' hknows hopen h => knows_iff_keeps h hknows hopen,
    fun r r' other h hother => h.knows_other hother⟩
  exact (taking_committed hx (hkey ▸ hruns.knows hfirst) hwhole).1

/-- A run over a group of one track. It finds a journal and a catalog, and gets one answer. -/
def ofTrack (journal : List ResumeEntry) (catalog : Catalog) (answer : MatchDecision)
    (readOnly : List Place) : ImportRun where
  agenda :=
    { env := { Session.titleLibrary .move with journal := ⟨journal⟩ }
      writer := ⟨⟨"journal"⟩, 0⟩
      plans := [⟨"in", [⟨"in/a.flac"⟩], true⟩] }
  time := .epoch
  start :=
    { files := { nodes := [(["in"], .directory), (["in", "a.flac"], .file "one".toUTF8)], readOnly }
      tags := .records { records := [{ path := ⟨"in/a.flac"⟩, title := some "A", album := some "X" }] }
      catalog, decisions := [answer], duplicates := [.keepBoth] }

def committedEntry : ResumeEntry :=
  { key := "in", outcome := .failed, timestamp := .epoch
    completedSteps := [.transferFiles, .writeTags, .catalogCommit] }

def abortedEntry : ResumeEntry := { key := "in", outcome := .aborted, timestamp := .epoch }

/-- The catalog with the track in it. -/
def oneAlbum : Catalog :=
  (({} : Catalog).addAlbum { albumArtist := "", album := "X" }
    [{ path := ⟨"lib/A.flac"⟩, title := some "A", album := some "X" }]).2

/-- The track cannot be removed from its directory. -/
def lockedRun : ImportRun := ofTrack [] {} .useAsIs [["in"]]

def abortedRun : ImportRun := ofTrack [committedEntry] oneAlbum .abort []

def repeatedRun : ImportRun := ofTrack [abortedEntry] oneAlbum .useAsIs []

theorem lockedRun_leaves : lockedRun.LeavesCommitted "in" := by
  have h : (lockedRun.lastReport? "in").any fun report => report.TellsCommit := by decide +kernel
  obtain ⟨report, hreport, htells⟩ := (Option.any_eq_true _ _).mp h
  exact ⟨report, hreport, of_decide_eq_true htells⟩

theorem lockedRun_continues : Continues lockedRun abortedRun where
  journal := by
    have h : lockedRun.reports.map (·.journalEntry lockedRun.time) = [committedEntry] := by
      decide +kernel
    rw [h]
    rfl
  catalog := by decide +kernel

theorem abortedRun_continues : Continues abortedRun repeatedRun where
  journal := by
    have h : abortedRun.reports.map (·.journalEntry abortedRun.time) = [abortedEntry] := by
      decide +kernel
    rw [h]
    rfl
  catalog := by decide +kernel

/-- The retry takes up the group and leaves the catalog alone. -/
theorem no_second_commit_locked :
    ∃ x ∈ abortedRun.takings, x.task.key = "in" ∧ x.Whole ∧ Works x.before x.after := by
  have hany : abortedRun.takings.any fun x => x.task.key = "in" && x.Whole := by decide +kernel
  obtain ⟨x, hx, hcond⟩ := List.any_eq_true.mp hany
  obtain ⟨hkey, hwhole⟩ := Bool.and_eq_true_iff.mp hcond
  have hkey := of_decide_eq_true hkey
  have hwhole := of_decide_eq_true hwhole
  have hworks := (no_second_commit lockedRun_leaves (.next lockedRun_continues)).1
  exact ⟨x, hx, hkey, hwhole, hworks x hx hkey hwhole⟩

/-- After the retry was aborted, the third run inserts the rows once more. -/
theorem aborted_retry_commits_again :
    ¬ ∀ (first last : ImportRun) (key : GroupKey), first.LeavesCommitted key →
      Reaches (fun r => r.Unsettled key) first last →
        ∀ x ∈ last.takings, x.task.key = key → Works x.before x.after := by
  intro h
  have hopen : abortedRun.Unsettled "in" := by
    have hall : abortedRun.reports.all fun r => r.outcome = .aborted := by decide +kernel
    intro report hreport _
    have haborted : report.outcome = .aborted :=
      of_decide_eq_true (List.all_eq_true.mp hall report hreport)
    simp [haborted]
  have hreaches : Reaches (fun r => r.Unsettled "in") lockedRun repeatedRun :=
    .later (.next lockedRun_continues) hopen abortedRun_continues
  have hany : repeatedRun.takings.any fun x =>
      x.task.key = "in" && x.after.catalog.items.length != x.before.catalog.items.length := by
    decide +kernel
  obtain ⟨x, hx, hcond⟩ := List.any_eq_true.mp hany
  obtain ⟨hkey, hrows⟩ := Bool.and_eq_true_iff.mp hcond
  have hworks := h lockedRun repeatedRun "in" lockedRun_leaves hreaches x hx (of_decide_eq_true hkey)
  rw [hworks.catalog] at hrows
  simp at hrows

end ImportRun
end MusicImport
