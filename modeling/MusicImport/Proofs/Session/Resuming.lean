import MusicImport.Proofs.Grouping.Discovered
import MusicImport.Proofs.Journal.Sessions
import MusicImport.Proofs.Session.Finishing

/-! Importing once more over the journal that an import left. The second import takes up what the first one
did not bring to an end. -/
namespace MusicImport

open JournalSnapshot (ofEntries)
open JournalWriter (Holds openAt)
open Session (Sweeps prepare importGroups importBelow)

variable {env env₁ env₂ : Environment} {root : FilePath} {time : Timestamp} {s s' s₁ s₂ : Session}

/-- An import leaves a group over if it does not report it, or reports it as aborted or failed. -/
def ImportSummary.Leaves (m : ImportSummary) (key : GroupKey) : Prop :=
  key ∉ m.reports.map (·.key) ∨
    ∃ r ∈ m.reports, r.key = key ∧ (r.outcome = .aborted ∨ r.outcome = .failed)

instance (m : ImportSummary) (key : GroupKey) : Decidable (m.Leaves key) :=
  inferInstanceAs (Decidable (_ ∨ _))

/-- The journal has as settled what is not left over. -/
theorem ImportSummary.leaves_iff {m : ImportSummary} (hkeys : (m.reports.map (·.key)).Nodup)
    (time : Timestamp) (key : GroupKey) :
    m.Leaves key ↔ key ∉ (ofEntries (m.reports.map (·.journalEntry time))).settledKeys := by
  have hentries : ((m.reports.map (·.journalEntry time)).map (·.key)).Nodup := by
    rw [List.map_map]
    exact hkeys
  rw [(JournalSnapshot.ofEntries_tells _).settled]
  constructor
  · rintro hleaves ⟨e, he, hsettled⟩
    obtain ⟨hmem, rfl⟩ := JournalSnapshot.mem_of_latest? he
    obtain ⟨r, hr, rfl⟩ := List.mem_map.mp hmem
    obtain habsent | ⟨x, hx, hkey, hopen⟩ := hleaves
    · exact habsent (List.mem_map.mpr ⟨r, hr, rfl⟩)
    · obtain rfl := List.inj_on_of_nodup_map hkeys hx hr hkey
      have houtcome : (x.journalEntry time).outcome = x.outcome := rfl
      rw [houtcome] at hsettled
      rcases hopen with hopen | hopen <;> simp [hopen] at hsettled
  · intro hunsettled
    by_cases hmem : key ∈ m.reports.map (·.key)
    · obtain ⟨r, hr, rfl⟩ := List.mem_map.mp hmem
      have hlatest := JournalSnapshot.latest?_of_mem hentries (List.mem_map.mpr ⟨r, hr, rfl⟩)
      refine .inr ⟨r, hr, rfl, ?_⟩
      cases houtcome : r.outcome with
      | done => exact absurd ⟨_, hlatest, .inl houtcome⟩ hunsettled
      | skipped => exact absurd ⟨_, hlatest, .inr houtcome⟩ hunsettled
      | aborted => exact .inl rfl
      | failed => exact .inr rfl
    · exact .inl hmem

/-- What is done for a group leaves a file as it is, until the line of the group is written. -/
def ImportRun.Spares (r : ImportRun) (path : FilePath) : Prop :=
  ∀ x ∈ r.takings, (x.booking r.agenda.env).closing.files.read path = x.before.files.read path

instance (r : ImportRun) (path : FilePath) : Decidable (r.Spares path) :=
  inferInstanceAs (Decidable (∀ _ ∈ _, _))

namespace FinishedImport

/-- What a group that was taken up is booked as, for each of them. -/
theorem booking_of_visit (i : FinishedImport env root s) {v : Visit} {b : Booking} (hv : v ∈ i.visits)
    (hb : v.booking = some b) : ∃ x ∈ i.takings, b = x.booking i.agenda.env := by
  have hmem : b ∈ i.visits.filterMap (·.booking) := List.mem_filterMap.mpr ⟨v, hv, hb⟩
  rw [(i.sweeps.takings rfl).1] at hmem
  obtain ⟨x, hx, rfl⟩ := List.mem_map.mp hmem
  exact ⟨x, hx, rfl⟩

/-- An import that makes its journal takes up all groups, and the journal then has its reports. -/
theorem journal (i : FinishedImport env root s) (hw : s.files.WellFormed)
    (habsent : s.files.Absent env.config.journalPath) (hspares : i.Spares env.config.journalPath) :
    s.plansBelow env root = .ok i.agenda.plans ∧ i.ended.files.read env.config.journalPath =
      .ok ⟨((i.summary.reports.map (·.journalEntry i.time)).flatMap ResumeEntry.bytes).toArray⟩ := by
  obtain ⟨found, w, plans, hload, hopened, hplans, hagenda, hstart⟩ :=
    Session.prepare_ok_iff.mp i.ready
  have hnone : JournalSnapshot.load s.files env.config.journalPath = .ok {} := by
    simp [JournalSnapshot.load, FileTree.readText, habsent.now, Bind.bind, Except.bind]
  obtain rfl : ({} : JournalSnapshot) = found := Except.ok.inj (hnone.symm.trans hload)
  have hsettled : Session.settledGroups { env with journal := {} } = [] := by
    unfold Session.settledGroups
    split <;> rfl
  obtain ⟨rfl, hholds⟩ := JournalWriter.openAt_absent hw habsent (Prod.ext hopened rfl)
  constructor
  · rw [hplans, ← hagenda, hsettled]
    simp
  · have hwriter : i.agenda.writer = ⟨env.config.journalPath, 0⟩ := by rw [← hagenda]
    have hstarted : i.start.files.read i.agenda.writer.path = .ok ⟨([] : List UInt8).toArray⟩ := by
      rw [← hstart, hwriter]
      exact hholds.read
    have hjournal := i.sweeps.journal hstarted (by rw [hwriter]; rfl) fun v hv b hb => by
      obtain ⟨x, hx, rfl⟩ := i.booking_of_visit hv hb
      rw [hwriter]
      exact hspares x hx
    rw [hwriter, List.nil_append, ← i.reports] at hjournal
    exact hjournal

end FinishedImport

/-- A later import below the same root, with the same settings, after one that made the journal. Between
them the journal was left alone, and the same groups are found. Nothing else is known to have stayed. -/
structure Resumption (first : FinishedImport env₁ root s₁) (env₂ : Environment) (s₂ : Session) : Prop where
  config : env₂.config = env₁.config
  resume : env₁.config.resume = true
  unforced : env₁.config.forceReprocess = false
  time : first.time.isValid
  wellFormed : s₁.files.WellFormed
  absent : s₁.files.Absent env₁.config.journalPath
  keys : ∀ plans, s₁.plansBelow env₁ root = .ok plans → (plans.map (·.key)).Nodup
  spares : first.Spares env₁.config.journalPath
  kept : s₂.files.WellFormed
  journal : s₂.files.read env₂.config.journalPath = first.ended.files.read env₁.config.journalPath
  unchanged : s₂.plansBelow env₂ root = s₁.plansBelow env₁ root

/-- A second import does what the first one left over, and nothing else: it opens the journal, which tells
it what the first one reported, and visits those groups in the order of the scan. All of them are visited,
if it is not aborted itself, and those that it can read are reported. -/
structure TakesRest (first : FinishedImport env₁ root s₁) (second : FinishedImport env₂ root s₂) : Prop where
  told : second.agenda.env =
    { env₂ with journal := ofEntries (first.summary.reports.map (·.journalEntry first.time)) }
  opened : second.start = { s₂ with files := (openAt s₂.files env₂.config.journalPath).2 }
  rest : ∃ plans, s₁.plansBelow env₁ root = .ok plans ∧
    second.agenda.plans = plans.filter (first.summary.Leaves ·.key)
  taken : second.start.trying (importGroups second.agenda.env second.time
    { writer := second.agenda.writer } second.agenda.plans) = (.ok second.ledger, second.ended)
  finished : s₂.trying (importBelow env₂ second.time root) = (.ok second.summary, second.ended.look)
  inOrder : second.visits.map (·.plan) <+: second.agenda.plans
  all : second.visits.map (·.plan) = second.agenda.plans ∨ second.summary.aborted = true
  reported : second.summary.reports.map (·.key) =
    (second.visits.filter (·.tracks ≠ [])).map (·.plan.key)

/-- The later import comes to its end, and it takes up the groups that the first one left over: those
that it did not report, and those that it reported as aborted or failed. -/
theorem Resumption.takes_rest {first : FinishedImport env₁ root s₁} (h : Resumption first env₂ s₂)
    (time : Timestamp) :
    ∃ second : FinishedImport env₂ root s₂, second.time = time ∧ TakesRest first second := by
  obtain ⟨hplans, hwritten⟩ := first.journal h.wellFormed h.absent h.spares
  have hkeys : (first.summary.reports.map (·.key)).Nodup :=
    (h.keys _ hplans).sublist first.keys_sublist
  -- What the second import loads is what the first one reported.
  have hread := h.journal.trans hwritten
  have hvalid : ∀ e ∈ first.summary.reports.map (·.journalEntry first.time), e.timestamp.isValid := by
    intro e he
    obtain ⟨r, -, rfl⟩ := List.mem_map.mp he
    exact h.time
  have hload := JournalSnapshot.load_lines hvalid hread
  obtain ⟨files, hopened, -⟩ := Holds.openAt ⟨h.kept, hread⟩
  have hready := Session.prepare_ok_iff.mpr
    ⟨_, _, _, hload, congrArg Prod.fst hopened, h.unchanged.trans hplans, rfl, rfl⟩
  obtain ⟨second, hsecond⟩ := FinishedImport.exists_of_ready time hready
  have hagenda := congrArg ImportRun.agenda hsecond
  have hsettled : Session.settledGroups { env₂ with
      journal := ofEntries (first.summary.reports.map (·.journalEntry first.time)) } =
      (ofEntries (first.summary.reports.map (·.journalEntry first.time))).settledKeys := by
    unfold Session.settledGroups
    rw [if_pos (by rw [h.config, h.resume, h.unforced]; rfl)]
  refine ⟨second, congrArg ImportRun.time hsecond, ?_⟩
  constructor
  case told => rw [hagenda]
  case opened => exact congrArg ImportRun.start hsecond
  case rest =>
    refine ⟨_, hplans, ?_⟩
    rw [hagenda]
    dsimp only
    rw [hsettled]
    refine List.filter_congr fun p _ => ?_
    rw [Bool.eq_iff_iff, Bool.not_eq_true', ← Bool.not_eq_true, List.contains_iff_mem, decide_eq_true_iff]
    exact (ImportSummary.leaves_iff hkeys first.time p.key).symm
  case taken => exact second.sweeps.run rfl
  case finished => exact second.run
  case inOrder => exact second.sweeps.visits.1
  case all => exact second.visits_all
  case reported => exact second.keys

def singlesLibrary : Environment :=
  { Session.titleLibrary .copy with
    config := { (Session.titleLibrary .copy).config with singletons := true } }

/-- Two tracks next to a journal. -/
def pairTree (journal : ByteArray) : FileTree :=
  { nodes := [(["cratedig-journal.jsonl"], .file journal), (["in"], .directory),
      (["in", "a.flac"], .file "one".toUTF8), (["in", "b.flac"], .file "two".toUTF8)] }

def pairPlans : List GroupPlan :=
  [⟨"in/a.flac", [⟨"in/a.flac"⟩], false⟩, ⟨"in/b.flac", [⟨"in/b.flac"⟩], false⟩]

theorem pairTree_discover (journal : ByteArray) :
    (pairTree journal).discover ⟨"in"⟩ true false = .ok pairPlans := by
  have hsorted : List.Pairwise (fun x y : String × Node => decide (x.1 ≤ y.1) = true)
      [("a.flac", .file "one".toUTF8), ("b.flac", .file "two".toUTF8)] := by
    decide
  have hchildren : (pairTree journal).children ["in"] =
      [("a.flac", .file "one".toUTF8), ("b.flac", .file "two".toUTF8)] :=
    List.mergeSort_of_pairwise hsorted
  have hfiles : (pairTree journal).audioFiles ⟨"in"⟩ false = [⟨"in/a.flac"⟩, ⟨"in/b.flac"⟩] := by
    show ((pairTree journal).filesBelow false 5 [] ["in"] ⟨"in"⟩).filter isAudioFile = _
    rw [FileTree.filesBelow, hchildren]
    show [FilePath.join ⟨"in"⟩ ⟨"a.flac"⟩, FilePath.join ⟨"in"⟩ ⟨"b.flac"⟩].filter isAudioFile = _
    decide
  show Except.ok (singletonPlans (byDirectory ⟨"in"⟩ ((pairTree journal).audioFiles ⟨"in"⟩ false))) = _
  rw [hfiles]
  decide +kernel

theorem pairTree_openAt (journal : ByteArray) :
    openAt (pairTree journal) ⟨"cratedig-journal.jsonl"⟩ =
      (.ok ⟨⟨"cratedig-journal.jsonl"⟩, (JournalWriter.completeLines journal.toList).length⟩,
        pairTree ⟨(JournalWriter.completeLines journal.toList).toArray⟩) := by
  rfl

def pairSession : Session :=
  { files := (pairTree .empty).erase ["cratedig-journal.jsonl"]
    tags := .records { records := [{ path := ⟨"in/a.flac"⟩, title := some "A" },
      { path := ⟨"in/b.flac"⟩, title := some "B" }] }
    decisions := [.skip, .abort] }

def pairRun : ImportRun where
  agenda := { env := singlesLibrary, writer := ⟨⟨"cratedig-journal.jsonl"⟩, 0⟩, plans := pairPlans }
  time := .epoch
  start := { pairSession with files := pairTree .empty }

def pairEntries : List ResumeEntry :=
  [{ key := "in/a.flac", outcome := .skipped, timestamp := .epoch },
    { key := "in/b.flac", outcome := .aborted, timestamp := .epoch }]

/-- What a later import finds. -/
def pairLater : Session :=
  { files := pairTree ⟨(pairEntries.flatMap ResumeEntry.bytes).toArray⟩, tags := pairSession.tags
    decisions := [.useAsIs] }

theorem pairSession_plans : pairSession.plansBelow singlesLibrary ⟨"in"⟩ = .ok pairPlans := by
  have hopened : (openAt pairSession.files ⟨"cratedig-journal.jsonl"⟩).2 = pairTree .empty := by rfl
  have hdiscover := pairTree_discover .empty
  rw [← hopened] at hdiscover
  exact hdiscover

theorem pairLater_plans : pairLater.plansBelow singlesLibrary ⟨"in"⟩ = .ok pairPlans := by
  have hopened := congrArg Prod.snd (pairTree_openAt ⟨(pairEntries.flatMap ResumeEntry.bytes).toArray⟩)
  unfold Session.plansBelow
  exact (congrArg (fun t : FileTree => t.discover ⟨"in"⟩ true false) hopened).trans (pairTree_discover _)

theorem pairSession_absent : pairSession.files.Absent ⟨"cratedig-journal.jsonl"⟩ :=
  .of_bare (by rfl) (by rfl)

theorem pairRun_spares : pairRun.Spares ⟨"cratedig-journal.jsonl"⟩ := by decide +kernel

theorem pairRun_ready :
    pairSession.trying (prepare singlesLibrary ⟨"in"⟩) = (.ok pairRun.agenda, pairRun.start) :=
  Session.prepare_ok_iff.mpr
    ⟨{}, ⟨⟨"cratedig-journal.jsonl"⟩, 0⟩, pairPlans, by rfl, by rfl, pairSession_plans, by rfl, by rfl⟩

section

variable {first : FinishedImport singlesLibrary ⟨"in"⟩ pairSession}

theorem pairRun_entries (h : first.toImportRun = pairRun) :
    first.summary.reports.map (·.journalEntry first.time) = pairEntries := by
  rw [first.reports_takings, h]
  decide +kernel

theorem pairRun_resumption (h : first.toImportRun = pairRun) :
    Resumption first singlesLibrary pairLater := by
  have hwellFormed : pairSession.files.WellFormed := .of_nodes (by rfl) rfl
  have hspares : first.Spares ⟨"cratedig-journal.jsonl"⟩ := by
    rw [h]
    exact pairRun_spares
  obtain ⟨-, hwritten⟩ := first.journal hwellFormed pairSession_absent hspares
  rw [pairRun_entries h] at hwritten
  constructor
  case wellFormed => exact hwellFormed
  case absent => exact pairSession_absent
  case spares => exact hspares
  case journal => exact Eq.symm hwritten
  case unchanged => exact pairLater_plans.trans pairSession_plans.symm
  case kept => exact .of_nodes (by rfl) rfl
  case time =>
    rw [h]
    decide
  case keys =>
    intro plans hplans
    obtain rfl := Except.ok.inj (pairSession_plans.symm.trans hplans)
    decide
  all_goals rfl

end

/-- The second track is taken up once more, and the first one is not. -/
theorem takes_rest_pair : ∃ (first : FinishedImport singlesLibrary ⟨"in"⟩ pairSession)
    (second : FinishedImport singlesLibrary ⟨"in"⟩ pairLater),
    Resumption first singlesLibrary pairLater ∧ TakesRest first second ∧
      second.agenda.plans = [⟨"in/b.flac", [⟨"in/b.flac"⟩], false⟩] := by
  obtain ⟨first, hfirst⟩ := FinishedImport.exists_of_ready pairRun.time pairRun_ready
  have hentries := pairRun_entries hfirst
  have hresumption := pairRun_resumption hfirst
  obtain ⟨second, -, htakes⟩ := hresumption.takes_rest .epoch
  obtain ⟨plans, hplans, hrest⟩ := htakes.rest
  obtain rfl : pairPlans = plans := Except.ok.inj (pairSession_plans.symm.trans hplans)
  refine ⟨first, second, hresumption, htakes, ?_⟩
  have hkeys : (first.summary.reports.map (·.key)).Nodup := by
    have hsame := congrArg (List.map ResumeEntry.key) hentries
    rw [List.map_map] at hsame
    rw [show first.summary.reports.map (·.key) = pairEntries.map ResumeEntry.key from hsame]
    decide
  have hleaves (p : GroupPlan) :
      first.summary.Leaves p.key ↔ p.key ∉ (ofEntries pairEntries).settledKeys := by
    rw [ImportSummary.leaves_iff hkeys first.time, hentries]
  rw [hrest]
  simp only [hleaves]
  decide

/-- What an import leaves for the next one, which gets answers of its own. -/
def Session.later (s : Session) (decisions : List MatchDecision) : Session :=
  { files := s.files, tags := s.tags, catalog := s.catalog, decisions }

/-- An import that finds no journal and comes to its end, and a second one right after it that finds
the same groups. -/
structure Repetition (env : Environment) (root : FilePath) (s u : Session) (answers : List MatchDecision)
    (plans : List GroupPlan) (m₁ m₂ : ImportSummary) : Prop where
  resume : env.config.resume = true
  unforced : env.config.forceReprocess = false
  wellFormed : s.files.WellFormed
  absent : s.files.Absent env.config.journalPath
  keys : (plans.map (·.key)).Nodup
  found : s.plansBelow env root = .ok plans
  first : s.trying (importBelow env .epoch root) = (.ok m₁, u)
  unchanged : (u.later answers).plansBelow env root = .ok plans
  second : ((u.later answers).trying (importBelow env .epoch root)).1 = .ok m₂

def trackPlan : GroupPlan := ⟨"in/a.flac", [⟨"in/a.flac"⟩], false⟩

/-- A track to be imported. -/
def trackSession (catalog : Catalog) : Session :=
  { files := { nodes := [(["in"], .directory), (["in", "a.flac"], .file "one".toUTF8)] }
    tags := .records { records := [{ path := ⟨"in/a.flac"⟩, title := some "A" }] }
    catalog, decisions := [.useAsIs], duplicates := [.removeOld] }

/-- The journal has a row, which the import of the track replaces. -/
def journalRow : Catalog :=
  (({} : Catalog).add [{ path := ⟨"cratedig-journal.jsonl"⟩, title := some "A" }]).2

/-- The abort signal is raised while the first tags are read. -/
def hastyLibrary : Environment :=
  { Session.titleLibrary .copy with raises := [⟨.read, 1⟩] }

/-- What was reported, where an import came to its end. -/
def reportedOutcomes (r : Except ImportFailure ImportSummary) : Option (List (GroupKey × Outcome)) :=
  r.toOption.map fun m => m.reports.map fun report => (report.key, report.outcome)

theorem reportedOutcomes_eq_some {r : Except ImportFailure ImportSummary} {os : List (GroupKey × Outcome)}
    (h : reportedOutcomes r = some os) :
    ∃ m, r = .ok m ∧ m.reports.map (fun report => (report.key, report.outcome)) = os := by
  obtain ⟨m, hm, hos⟩ := Option.map_eq_some_iff.mp h
  exact ⟨m, Session.toOption_eq_some.mp hm, hos⟩

/-- The session after the first import of the track. -/
def afterTrack (env : Environment) (catalog : Catalog) : Session :=
  ((trackSession catalog).trying (importBelow env .epoch ⟨"in/a.flac"⟩)).2

theorem trackRepetition (env : Environment) (catalog : Catalog) {m₁ m₂ : ImportSummary}
    (henv : env.config = (Session.titleLibrary .copy).config)
    (hfile : (openAt ((afterTrack env catalog).later [.skip]).files
      ⟨"cratedig-journal.jsonl"⟩).2.isFile ⟨"in/a.flac"⟩ = true)
    (h₁ : ((trackSession catalog).trying (importBelow env .epoch ⟨"in/a.flac"⟩)).1 = .ok m₁)
    (h₂ : (((afterTrack env catalog).later [.skip]).trying
      (importBelow env .epoch ⟨"in/a.flac"⟩)).1 = .ok m₂) :
    Repetition env ⟨"in/a.flac"⟩ (trackSession catalog) (afterTrack env catalog) [.skip] [trackPlan]
      m₁ m₂ where
  resume := by rw [henv]; rfl
  unforced := by rw [henv]; rfl
  wellFormed := .of_nodes (by rfl) rfl
  absent := by
    rw [henv]
    exact .of_bare (by rfl) (by rfl)
  keys := List.nodup_singleton _
  found := FileTree.discover_file (by rw [henv]; rfl) (by decide)
  first := Prod.ext h₁ rfl
  unchanged := FileTree.discover_file (by rw [henv]; exact hfile) (by decide)
  second := h₂

theorem replaced_outcomes :
    reportedOutcomes ((trackSession journalRow).trying
      (importBelow (Session.titleLibrary .copy) .epoch ⟨"in/a.flac"⟩)).1 =
        some [("in/a.flac", .done)] ∧
    reportedOutcomes (((afterTrack (Session.titleLibrary .copy) journalRow).later [.skip]).trying
      (importBelow (Session.titleLibrary .copy) .epoch ⟨"in/a.flac"⟩)).1 =
        some [("in/a.flac", .skipped)] ∧
    (openAt ((afterTrack (Session.titleLibrary .copy) journalRow).later [.skip]).files
      ⟨"cratedig-journal.jsonl"⟩).2.isFile ⟨"in/a.flac"⟩ := by
  decide +kernel

theorem hasty_outcomes :
    reportedOutcomes ((trackSession {}).trying (importBelow hastyLibrary .epoch ⟨"in/a.flac"⟩)).1 = some [] ∧
    reportedOutcomes (((afterTrack hastyLibrary {}).later [.skip]).trying
      (importBelow hastyLibrary .epoch ⟨"in/a.flac"⟩)).1 = some [] ∧
    (openAt ((afterTrack hastyLibrary {}).later [.skip]).files
      ⟨"cratedig-journal.jsonl"⟩).2.isFile ⟨"in/a.flac"⟩ ∧
    (((afterTrack hastyLibrary {}).later [.skip]).doing
      (Session.readGroup hastyLibrary trackPlan.files)).1 ≠ [] := by
  decide +kernel

/-- A group that was done is taken up again where the import itself removed the journal, and a group
that was left over is not where the second import is aborted before it. -/
theorem repetition_not_exact :
    (¬ ∀ env root s u answers plans m₁ m₂, Repetition env root s u answers plans m₁ m₂ →
      ∀ p ∈ plans, p.key ∈ m₂.reports.map (·.key) → m₁.Leaves p.key) ∧
    ¬ ∀ env root s u answers plans m₁ m₂, Repetition env root s u answers plans m₁ m₂ →
      ∀ p ∈ plans, m₁.Leaves p.key →
        ((u.later answers).doing (Session.readGroup env p.files)).1 ≠ [] →
          p.key ∈ m₂.reports.map (·.key) := by
  constructor
  · intro h
    obtain ⟨hfirst, hsecond, hfile⟩ := replaced_outcomes
    obtain ⟨m₁, hm₁, hdone⟩ := reportedOutcomes_eq_some hfirst
    obtain ⟨m₂, hm₂, hagain⟩ := reportedOutcomes_eq_some hsecond
    have hrepeated := trackRepetition (Session.titleLibrary .copy) journalRow rfl hfile hm₁ hm₂
    obtain ⟨r, hr, hrdone⟩ := List.map_eq_singleton_iff.mp hdone
    obtain ⟨r', hr', hragain⟩ := List.map_eq_singleton_iff.mp hagain
    obtain ⟨hkey, houtcome⟩ := Prod.mk.inj hrdone
    obtain ⟨hkey', -⟩ := Prod.mk.inj hragain
    have hmem : trackPlan.key ∈ m₂.reports.map (·.key) := by
      rw [hr', List.map_singleton, hkey']
      exact .head _
    have hleaves := h _ _ _ _ _ _ _ _ hrepeated trackPlan (.head _) hmem
    simp [ImportSummary.Leaves, trackPlan, hr, hkey, houtcome] at hleaves
  · intro h
    obtain ⟨hfirst, hsecond, hfile, hreadable⟩ := hasty_outcomes
    obtain ⟨m₁, hm₁, hnone⟩ := reportedOutcomes_eq_some hfirst
    obtain ⟨m₂, hm₂, hagain⟩ := reportedOutcomes_eq_some hsecond
    have hrepeated := trackRepetition hastyLibrary {} rfl hfile hm₁ hm₂
    have hleaves : m₁.Leaves trackPlan.key := by
      rw [List.map_eq_nil_iff] at hnone
      simp [ImportSummary.Leaves, hnone]
    have hmem := h _ _ _ _ _ _ _ _ hrepeated trackPlan (.head _) hleaves hreadable
    rw [List.map_eq_nil_iff] at hagain
    simp [hagain] at hmem

end MusicImport
