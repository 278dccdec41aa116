import MusicImport.Proofs.Session.Reporting

/-! Tasks that are resolved and finished in order. Each of them is booked once: with one report under its
own key, and with one line of the journal that says the same. -/
namespace MusicImport

namespace TaskReport

/-- The line that the error of a child gets in the report of its group. -/
def errorLine? (c : TaskReport) : Option String := c.error.map fun e => c.key ++ ": " ++ e

/-- A report that puts together those of the children of a group. One that failed makes the group failed, else
one that was aborted makes it aborted; it is skipped if there are children and all were. -/
structure Combines (r : TaskReport) (key : GroupKey) (children : List TaskReport) : Prop where
  key : r.key = key
  failed : r.outcome = .failed ↔ ∃ c ∈ children, c.outcome = .failed
  aborted : r.outcome = .aborted ↔
    (∀ c ∈ children, c.outcome ≠ .failed) ∧ ∃ c ∈ children, c.outcome = .aborted
  skipped : r.outcome = .skipped ↔ children ≠ [] ∧ ∀ c ∈ children, c.outcome = .skipped
  tracks : r.tracks = children.foldr (fun c n => c.tracks + n) 0
  entries : r.entries = children.flatMap (·.entries)
  paths : r.paths = children.flatMap (·.paths)
  error : r.error = none ↔ ∀ c ∈ children, c.error = none
  errors : ∀ text ∈ r.error, text = String.intercalate "; " (children.filterMap (·.errorLine?))
  alone : r.similarity = none ∧ r.completedSteps = []

variable {r r' : TaskReport} {key : GroupKey} {children : List TaskReport}

theorem combinedOutcome_failed {os : List Outcome} : combinedOutcome os = .failed ↔ .failed ∈ os := by
  unfold combinedOutcome
  grind

theorem combinedOutcome_aborted {os : List Outcome} :
    combinedOutcome os = .aborted ↔ .failed ∉ os ∧ .aborted ∈ os := by
  unfold combinedOutcome
  grind

theorem combinedOutcome_skipped {os : List Outcome} :
    combinedOutcome os = .skipped ↔ os ≠ [] ∧ ∀ o ∈ os, o = .skipped := by
  unfold combinedOutcome
  grind

theorem combinedError_none : combinedError children = none ↔ ∀ c ∈ children, c.error = none := by
  unfold combinedError
  simp

theorem combinedError_some {text : String} (h : combinedError children = some text) :
    text = String.intercalate "; " (children.filterMap (·.errorLine?)) := by
  unfold combinedError at h
  dsimp only at h
  split at h
  · cases h
  · exact (Option.some.inj h).symm

theorem aggregate_combines (key : GroupKey) (children : List TaskReport) :
    (aggregate key children).Combines key children where
  key := rfl
  failed := by simp [aggregate, combinedOutcome_failed]
  aborted := by simp [aggregate, combinedOutcome_aborted]
  skipped := by simp [aggregate, combinedOutcome_skipped]
  tracks := by
    show (children.map (·.tracks)).foldl (· + ·) 0 = _
    rw [← List.sum_eq_foldl, List.sum_eq_foldr, List.foldr_map]
  entries := rfl
  paths := rfl
  error := combinedError_none
  errors _ h := combinedError_some h
  alone := ⟨rfl, rfl⟩

/-- There is no other such report. -/
theorem Combines.unique (h : r.Combines key children) (h' : r'.Combines key children) : r = r' := by
  have houtcome : r.outcome = r'.outcome := by
    have hfailed := h.failed.trans h'.failed.symm
    have haborted := h.aborted.trans h'.aborted.symm
    have hskipped := h.skipped.trans h'.skipped.symm
    cases hr : r.outcome <;> cases hr' : r'.outcome <;> simp [hr, hr'] at hfailed haborted hskipped ⊢
  have herror : r.error = r'.error := by
    have hnone := h.error.trans h'.error.symm
    cases hr : r.error with
    | none => exact (hnone.mp hr).symm
    | some text =>
      cases hr' : r'.error with
      | none => simp [hnone.mpr hr'] at hr
      | some text' => rw [h.errors text hr, h'.errors text' hr']
  have hkey := h.key.trans h'.key.symm
  have htracks := h.tracks.trans h'.tracks.symm
  have hentries := h.entries.trans h'.entries.symm
  have hpaths := h.paths.trans h'.paths.symm
  have hsimilarity := h.alone.1.trans h'.alone.1.symm
  have hsteps := h.alone.2.trans h'.alone.2.symm
  cases r
  cases r'
  simp_all

end TaskReport

/-- How a task was brought to its end: what it was resolved as, the reports of that, and the sessions
before it was resolved and before its line is written. -/
structure Booking where
  task : Task
  before : Session
  parts : List Resolved
  partReports : List TaskReport
  closing : Session

namespace Booking

/-- The report of the group. -/
def report (b : Booking) : TaskReport := Session.groupReport b.task.key b.parts b.partReports

/-- Its line in the journal. -/
def entry (b : Booking) (time : Timestamp) : ResumeEntry := b.report.journalEntry time

/-- A group is reported as the task that it came out as, or, if it was split, by putting together the
reports of its tracks, in order. -/
inductive Accounted (env : Environment) (b : Booking) : Prop
  | whole {r : Resolved} (parts : b.parts = [r]) (ended : Session.Ended env b.task r)
      (reports : b.partReports = [b.report])
  | split {t' : Task} (album : b.task.isAlbum = true) (akin : b.task.Akin t')
      (parts : List.Forall₂ (Session.Ended env) t'.split b.parts)
      (keys : b.partReports.map (·.key) = (List.range t'.tracks.length).map b.task.key.child)
      (report : b.report.Combines b.task.key b.partReports)

end Booking

/-- The progress after reports: so many groups of each outcome, and no others. -/
structure ImportProgress.Tallies (p : ImportProgress) (rs : List TaskReport) : Prop where
  processed : p.processed = rs.length
  done : p.done = rs.countP (·.outcome = .done)
  skipped : p.skipped = rs.countP (·.outcome = .skipped)
  aborted : p.aborted = rs.countP (·.outcome = .aborted)
  failed : p.failed = rs.countP (·.outcome = .failed)
  total : p.processed = p.done + p.skipped + p.aborted + p.failed
  current : p.current = rs.getLast?.map (·.key)

namespace ImportProgress

variable {p q : ImportProgress} {before rs : List TaskReport}

theorem tallies_nil : Tallies {} [] := ⟨rfl, rfl, rfl, rfl, rfl, rfl, rfl⟩

theorem Tallies.record (h : p.Tallies rs) (r : TaskReport) : (p.record r).Tallies (rs ++ [r]) := by
  obtain ⟨hprocessed, hdone, hskipped, haborted, hfailed, htotal, -⟩ := h
  unfold ImportProgress.record
  cases houtcome : r.outcome
  all_goals
    constructor <;> simp [houtcome, hprocessed, hdone, hskipped, haborted, hfailed]
    omega

theorem history_tallies (h : p.Tallies before) {i : Nat} (hq : (history p rs)[i]? = some q) :
    q.Tallies (before ++ rs.take (i + 1)) := by
  induction rs generalizing p before i with
  | nil => cases hq
  | cons r rest ih =>
    cases i with
    | zero =>
      obtain rfl : p.record r = q := by simpa [history] using hq
      simpa using h.record r
    | succ i =>
      have hrest := ih (h.record r) (by simpa [history] using hq)
      simpa using hrest

theorem length_history (p : ImportProgress) (rs : List TaskReport) :
    (history p rs).length = rs.length := by
  induction rs generalizing p with
  | nil => rfl
  | cons r rest ih => simp [history, ih]

end ImportProgress

namespace Session

variable {s s' : Session} {env : Environment} {time : Timestamp} {t : Task} {l l' : Ledger}
  {bs : List Booking}

/-- A task of a group as it comes to be resolved. -/
structure Emitted (t : Task) : Prop where
  waiting : Waiting t
  origin : t.origin = none
  tracks : t.tracks ≠ []

/-- Resolves tasks in order and finishes what they are resolved as. -/
def processAll (env : Environment) (time : Timestamp) :
    Ledger → List Task → Attempt ImportFailure Ledger
  | l, [] => return l
  | l, t :: rest => do
    let resolved ← resolve env t
    let l ← finishAll env time l resolved
    processAll env time l rest

/-- Settles a task and finishes what it is settled as. -/
def conclude (env : Environment) (settle : Act (List Resolved)) (t : Task) (s : Session) : Booking :=
  let (parts, u) := s.doing settle
  let (partReports, closing) := u.doing (finishes env parts)
  { task := t, before := s, parts, partReports, closing }

/-- The bookings of a ledger from one state of it to another: for each of them one line is appended to
the journal and one report is added. -/
inductive Books (env : Environment) (time : Timestamp) :
    Ledger → Session → List Booking → Ledger → Session → Prop
  | nil (l : Ledger) (s : Session) : Books env time l s [] l s
  | cons {l l' : Ledger} {s s' : Session} {t : Task} {b : Booking} {bs : List Booking}
      {w : JournalWriter} {files : FileTree} (hb : b = conclude env (resolve env t) t s)
      (happend : l.writer.append b.closing.files (b.entry time) = .ok (w, files))
      (hrest : Books env time { l with writer := w, reports := l.reports ++ [b.report] }
        { b.closing with files } bs l' s') :
      Books env time l s (b :: bs) l' s'

theorem finishes_keys (rs : List Resolved) :
    (s.doing (finishes env rs)).1.map (·.key) = rs.map (·.task.key) := by
  induction rs generalizing s with
  | nil => rfl
  | cons r rest ih =>
    unfold finishes
    simp only [doing_bind, doing_pure, List.map_cons, finish_key, ih]

theorem conclude_key {settle : Act (List Resolved)} (hfrom : ResolvedFrom env t (s.doing settle).1)
    (horigin : t.origin = none) (htracks : t.tracks ≠ []) :
    (conclude env settle t s).report.key = t.key :=
  (groupReport_of hfrom horigin htracks).1

theorem split_keys (t : Task) :
    t.split.map (·.key) = (List.range t.tracks.length).map t.key.child := by
  apply List.ext_getElem <;> simp [Task.split]

theorem parts_keys {parts : List Task} {rs : List Resolved} (h : List.Forall₂ (Ended env) parts rs) :
    rs.map (·.task.key) = parts.map (·.key) := by
  induction h with
  | nil => rfl
  | cons hr _ ih => rw [List.map_cons, List.map_cons, hr.akin.key, ih]

theorem conclude_accounted {settle : Act (List Resolved)}
    (hfrom : ResolvedFrom env t (s.doing settle).1) (horigin : t.origin = none) (htracks : t.tracks ≠ []) :
    (conclude env settle t s).Accounted env := by
  have hreports : (conclude env settle t s).partReports =
      ((s.doing settle).2.doing (finishes env (s.doing settle).1)).1 := rfl
  have hreport : (conclude env settle t s).report =
      groupReport t.key (s.doing settle).1 (conclude env settle t s).partReports := rfl
  obtain ⟨r, hr, hended, -, hwhole⟩ | ⟨hparts, -⟩ := hfrom.shape horigin htracks
  · rw [hr] at hreports
    have hone : (conclude env settle t s).partReports = [((s.doing settle).2.doing (finish env r)).1] :=
      hreports
    refine .whole hr hended ?_
    rw [hreport, hone]
    exact congrArg (fun report => [report]) (if_pos hwhole).symm
  · obtain ⟨r, hr, hended⟩ | ⟨halbum, t', hakin, hended⟩ := hfrom
    · refine absurd (fun x hx => ?_) hparts
      obtain rfl : x = r := by simpa [hr] using hx
      exact hended.akin.origin.trans horigin
    · have hkeys : (conclude env settle t s).partReports.map (·.key) =
          (List.range t'.tracks.length).map t.key.child := by
        rw [hreports, finishes_keys, parts_keys hended, split_keys, hakin.key]
      rw [groupReport_parts hparts] at hreport
      exact .split halbum hakin hended hkeys (hreport ▸ TaskReport.aggregate_combines _ _)

/-- A task is settled and finished, and then its report is entered. -/
theorem conclude_run (time : Timestamp) {settle : Act (List Resolved)}
    (hfrom : ResolvedFrom env t (s.doing settle).1) (horigin : t.origin = none) (htracks : t.tracks ≠ [])
    (hpending : l.pending = none) :
    s.trying (do finishAll env time l (← settle)) =
      (conclude env settle t s).closing.trying
        (enterReport time l (conclude env settle t s).report) := by
  rw [trying_bind, trying_liftM]
  exact finishAll_group hfrom horigin htracks hpending

theorem Books.reports (h : Books env time l s bs l' s') :
    l'.reports = l.reports ++ bs.map (·.report) := by
  induction h with
  | nil => simp
  | cons _ _ _ ih => simpa using ih

/-- What is booked stands in the journal, as long as nothing but the bookings touches it. -/
theorem Books.journal (h : Books env time l s bs l' s') {bytes : List UInt8}
    (hread : s.files.read l.writer.path = .ok ⟨bytes.toArray⟩) (hend : l.writer.position = bytes.length)
    (hleft : ∀ b ∈ bs, b.closing.files.read l.writer.path = b.before.files.read l.writer.path) :
    s'.files.read l.writer.path =
      .ok ⟨(bytes ++ (bs.map (·.entry time)).flatMap ResumeEntry.bytes).toArray⟩ := by
  induction h generalizing bytes with
  | nil => simpa using hread
  | @cons l l' s s' t b bs w files hb happend _ ih =>
    subst hb
    have hclosing := (hleft _ (.head _)).trans hread
    obtain ⟨files', happend', hread'⟩ := JournalWriter.append_at_end hclosing hend
      ((conclude env (resolve env t) t s).entry time)
    obtain ⟨rfl, rfl⟩ : _ = w ∧ files' = files := by simpa [happend'] using happend
    have hrest := ih hread' (by simp) fun b hb => hleft b (.tail _ hb)
    simpa using hrest

/-- Every task is booked, one after the other, and the appends to the journal succeed. -/
theorem processAll_run (env : Environment) (time : Timestamp) {tasks : List Task}
    (h : ∀ t ∈ tasks, Emitted t) (hpending : l.pending = none) :
    ∃ bs l' s', s.trying (processAll env time l tasks) = (.ok l', s') ∧ Books env time l s bs l' s' ∧
      bs.map (·.task) = tasks ∧
      ∀ b ∈ bs, ∃ t u, Emitted t ∧ b = conclude env (resolve env t) t u := by
  induction tasks generalizing l s with
  | nil => exact ⟨[], l, s, rfl, .nil l s, rfl, by simp⟩
  | cons t rest ih =>
    have ht := h t (.head _)
    obtain ⟨b, hb⟩ : ∃ b, b = conclude env (resolve env t) t s := ⟨_, rfl⟩
    have hrun := conclude_run time (resolve_from (s := s) env ht.waiting) ht.origin ht.tracks hpending
    rw [← hb] at hrun
    obtain ⟨files, happend, henter⟩ := enterReport_run time l b.report b.closing
    rw [henter] at hrun
    obtain ⟨bs, l', s', hall, hbooks, htasks, hconcluded⟩ :=
      ih (l := { l with
          writer := ⟨l.writer.path, l.writer.position + (b.entry time).bytes.length⟩
          reports := l.reports ++ [b.report] })
        (s := { b.closing with files }) (fun u hu => h u (.tail _ hu)) hpending
    refine ⟨b :: bs, l', s', ?_, .cons hb happend hbooks, ?_, ?_⟩
    · have hfirst : processAll env time l (t :: rest) =
          (do finishAll env time l (← resolve env t)) >>= fun l => processAll env time l rest := by
        simp [processAll]
      rw [hfirst, trying_bind, hrun]
      exact hall
    · rw [List.map_cons, htasks, hb]
      rfl
    · intro x hx
      obtain rfl | hx := List.mem_cons.mp hx
      · exact ⟨t, s, ht, hb⟩
      · exact hconcluded x hx

/-- Whatever is answered, fails or is aborted, every task has one report, in order and under its own
key, and one line in the journal, with the same key and outcome. If it was split its report puts
together those of its tracks. After each report the progress tells how many groups ended so far. -/
theorem processAll_books (env : Environment) (time : Timestamp) (writer : JournalWriter) (s : Session)
    {tasks : List Task} (h : ∀ t ∈ tasks, Emitted t) :
    ∃ bs l' s', s.trying (processAll env time { writer } tasks) = (.ok l', s') ∧
      Books env time { writer } s bs l' s' ∧ bs.map (·.task) = tasks ∧
      (∀ b ∈ bs, b.Accounted env ∧ b.report.key = b.task.key ∧ (b.entry time).key = b.task.key ∧
        (b.entry time).outcome = b.report.outcome) ∧
      l'.reports = bs.map (·.report) ∧
      (∀ bytes, s.files.read writer.path = .ok ⟨bytes.toArray⟩ → writer.position = bytes.length →
        (∀ b ∈ bs, b.closing.files.read writer.path = b.before.files.read writer.path) →
        s'.files.read writer.path =
          .ok ⟨(bytes ++ (bs.map (·.entry time)).flatMap ResumeEntry.bytes).toArray⟩) ∧
      (ImportProgress.history {} l'.reports).length = tasks.length ∧
      ∀ i (p : ImportProgress), (ImportProgress.history {} l'.reports)[i]? = some p →
        p.Tallies (l'.reports.take (i + 1)) := by
  obtain ⟨bs, l', s', hrun, hbooks, htasks, hconcluded⟩ :=
    processAll_run (s := s) (l := { writer }) env time h rfl
  have hreports : l'.reports = bs.map (·.report) := by simpa using hbooks.reports
  refine ⟨bs, l', s', hrun, hbooks, htasks, fun b hb => ?_, hreports, ?_, ?_, fun i p hp => ?_⟩
  · obtain ⟨t, u, ht, rfl⟩ := hconcluded b hb
    have hfrom := resolve_from (s := u) env ht.waiting
    have hkey := conclude_key hfrom ht.origin ht.tracks
    exact ⟨conclude_accounted hfrom ht.origin ht.tracks, hkey, hkey, rfl⟩
  · exact fun bytes hread hend hleft => hbooks.journal hread hend hleft
  · rw [ImportProgress.length_history, hreports, ← htasks, List.length_map, List.length_map]
  · exact ImportProgress.history_tallies ImportProgress.tallies_nil hp

/-- An album of two tracks, which is split and of which the first track fails, and a track by itself. -/
def mixedTasks : List Task :=
  [{ key := "in", isAlbum := true, state := .grouped
     tracks := [{ path := ⟨"in/a.flac"⟩, title := some "A" }, { path := ⟨"in/b.flac"⟩, title := some "B" }] },
   { key := "c.flac", isAlbum := false, state := .searching
     tracks := [{ path := ⟨"c.flac"⟩, title := some "C" }] }]

def mixedSession : Session :=
  { files := { nodes := [(["journal"], .file .empty)] }
    decisions := [.asSingletons, .useAsIs, .skip, .skip] }

def mixedLibrary : Environment :=
  { config := {}, layout := .template ⟨"one", true⟩
    faults := [⟨⟨.findDuplicates, 1⟩, .storage "locked"⟩] }

theorem processAll_books_mixed : ∃ bs l' s',
    mixedSession.trying (processAll mixedLibrary .epoch ⟨⟨⟨"journal"⟩, 0⟩, none, []⟩ mixedTasks) =
      (.ok l', s') ∧
    Books mixedLibrary .epoch ⟨⟨⟨"journal"⟩, 0⟩, none, []⟩ mixedSession bs l' s' ∧
    l'.reports.map (fun r => (r.key, r.outcome)) = [("in", .failed), ("c.flac", .skipped)] := by
  have hemitted : ∀ t ∈ mixedTasks, Emitted t := by
    intro t ht
    obtain rfl | ht := List.mem_cons.mp ht
    · exact ⟨.inl rfl, rfl, List.cons_ne_nil _ _⟩
    · obtain rfl := List.mem_singleton.mp ht
      exact ⟨.inr rfl, rfl, List.cons_ne_nil _ _⟩
  obtain ⟨bs, l', s', hrun, hbooks, -⟩ :=
    processAll_books mixedLibrary .epoch ⟨⟨"journal"⟩, 0⟩ mixedSession hemitted
  have houtcomes : (mixedSession.trying
      (processAll mixedLibrary .epoch ⟨⟨⟨"journal"⟩, 0⟩, none, []⟩ mixedTasks)).1.toOption.map
        (fun l => l.reports.map fun r => (r.key, r.outcome)) =
      some [("in", .failed), ("c.flac", .skipped)] := by decide +kernel
  rw [hrun] at houtcomes
  exact ⟨bs, l', s', hrun, hbooks, Option.some.inj houtcomes⟩

end Session
end MusicImport
