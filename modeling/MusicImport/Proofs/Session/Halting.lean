import Mathlib.Logic.Relation
import MusicImport.Proofs.Session.Ending
import MusicImport.Proofs.Session.Heeding
import MusicImport.Proofs.Session.Reporting

/-! An import that is stopped. Searching, settling and finishing are stages that take turns in any order,
with tasks waiting between them, and the abort signal may go up in any of them. Once it is up nothing
more is asked, and nothing more is applied. -/
namespace MusicImport
namespace Session

variable {s s' : Session} {env : Environment} {time : Timestamp} {t : Task} {l l' : Ledger}

theorem unasked_applies (env : Environment) : Applies env (Unasked env) where
  toCalls := unasked_calls env
  writes _ _ := record_unasked env _
  sets _ _ _ _ := .of_same rfl rfl id

theorem apply_unasked (env : Environment) (t : Task) : Tries (Unasked env) (apply env t) :=
  (unasked_applies env).apply (fun _ _ => record_unasked env _) t

theorem finish_unasked (env : Environment) (r : Resolved) : Does (Unasked env) (finish env r) := by
  refine unasked_steady.does_bind ?_ fun _ => unasked_steady.does_pure _
  unfold applyResolved
  split
  · exact unasked_steady.does_pure _
  refine unasked_steady.does_bind (isAborted_unasked env) fun aborted => ?_
  split
  · exact unasked_steady.does_pure _
  refine unasked_steady.does_bind (apply_unasked env r.task).run fun applied => ?_
  cases applied with
  | ok a => exact unasked_steady.does_pure _
  | error e => exact unasked_steady.does_bind (record_unasked env _) fun _ => unasked_steady.does_pure _

theorem enterReport_unasked (env : Environment) (time : Timestamp) (l : Ledger) (r : TaskReport) :
    Tries (Unasked env) (enterReport time l r) := by
  intro s
  obtain ⟨files, -, hrun⟩ := enterReport_run time l r s
  rw [hrun]
  exact .of_same rfl rfl id

theorem finishAll_unasked (env : Environment) (time : Timestamp) (l : Ledger) (rs : List Resolved) :
    Tries (Unasked env) (finishAll env time l rs) := by
  induction rs generalizing l with
  | nil => exact unasked_steady.tries_pure _
  | cons r rest ih =>
    unfold finishAll
    refine unasked_steady.tries_bind (finish_unasked env r).lift fun report => ?_
    split
    · exact unasked_steady.tries_bind (enterReport_unasked env time l report) ih
    · refine unasked_steady.tries_bind ?_ ih
      unfold enterChild
      dsimp only
      split
      · exact enterReport_unasked env time _ _
      · exact unasked_steady.tries_pure _

theorem searchGrouped_unasked (env : Environment) (t : Task) : Does (Unasked env) (searchGrouped env t) :=
  searchGrouped_does unasked_steady (isAborted_unasked env) (fun t => (unasked_searches env).search t none) t

/-- What waits before each of the stages, and what they share. -/
structure Pipeline where
  grouped : List Task := []
  searched : List Task := []
  resolved : List Resolved := []
  ledger : Ledger
  session : Session

/-- One of the stages takes up what waits before it, or the signal is raised from outside. -/
inductive Pipeline.Step (env : Environment) (time : Timestamp) : Pipeline → Pipeline → Prop
  | search {p : Pipeline} {t : Task} {rest : List Task} (hwaits : p.grouped = t :: rest) :
      Step env time p { p with
        grouped := rest
        searched := p.searched ++ [(p.session.doing (searchGrouped env t)).1]
        session := (p.session.doing (searchGrouped env t)).2 }
  | resolve {p : Pipeline} {t : Task} {rest : List Task} (hwaits : p.searched = t :: rest) :
      Step env time p { p with
        searched := rest
        resolved := p.resolved ++ (p.session.doing (resolve env t)).1
        session := (p.session.doing (resolve env t)).2 }
  | finish {p : Pipeline} {r : Resolved} {rest : List Resolved} {l : Ledger} {s : Session}
      (hwaits : p.resolved = r :: rest)
      (hfinish : p.session.trying (finishAll env time p.ledger [r]) = (.ok l, s)) :
      Step env time p { p with resolved := rest, ledger := l, session := s }
  | raise {p : Pipeline} : Step env time p { p with session := { p.session with aborted := true } }

/-- The states that the stages come to. -/
def Pipeline.Reaches (env : Environment) (time : Timestamp) : Pipeline → Pipeline → Prop :=
  Relation.ReflTransGen (Pipeline.Step env time)

theorem Pipeline.Step.heeds {p p' : Pipeline} (h : Pipeline.Step env time p p') :
    Heeds env p.session p'.session := by
  cases h with
  | @search t rest hwaits => exact (searchGrouped_unasked env t p.session).heeds
  | @resolve t rest hwaits => exact (heeds_bears env).resolves t p.session
  | @finish r rest l s hwaits hfinish =>
    exact ((finishAll_unasked env time p.ledger [r]).result hfinish).heeds
  | raise => exact Unasked.heeds (.of_same rfl rfl fun _ => rfl)

theorem Heeds.aborted (h : Heeds env s s') (haborted : s.aborted = true) : s'.aborted = true := by
  obtain ⟨new, h⟩ := h
  exact h.aborted (by simp [stopped, haborted])

/-- An aborted import has no more to do than to report: settling a task asks nothing and leaves no task
ready to be applied, and finishing one that was ready reports it as aborted and does nothing else. -/
structure Halted (env : Environment) (s : Session) : Prop where
  unasked : ∀ t, ∃ new, (s.doing (resolve env t)).2.calls = new ++ s.calls ∧
    ∀ call ∈ new, call.asks = false
  unready : ∀ t, ∀ r ∈ (s.doing (resolve env t)).1, r.task.state ≠ .applying
  unapplied : ∀ r : Resolved, r.task.state = .applying →
    (s.doing (finish env r)).1.outcome = .aborted ∧ (s.doing (finish env r)).2 = s.look

theorem ready_live {d : Departure} (hd : d ∈ departures env t s)
    (h : d.result.task.state = .applying) : d.after.aborted = false := by
  obtain ⟨_, _, _, _, _, _, _, happroval⟩ := exists_approval hd h
  exact happroval.live

theorem halted_of_aborted (h : s.aborted = true) : Halted env s where
  unasked t := by
    obtain ⟨new, hnew⟩ := (heeds_bears env).resolves t s
    exact ⟨new, hnew.calls, hnew.no_question h⟩
  unready t r hr := by
    rw [← departures_results] at hr
    obtain ⟨d, hd, rfl⟩ := List.mem_map.mp hr
    intro happlying
    have hbears := heeds_bears env
    have hafter := (hbears.departs hd).aborted ((hbears.before hd).aborted h)
    rw [ready_live hd happlying] at hafter
    cases hafter
  unapplied r hr := by
    have houtcome : (r.task.marked .aborted).report.outcome = .aborted :=
      marked_outcome (by rw [hr]; rfl)
    unfold finish applyResolved
    simp only [hr, doing_bind, doing_isAborted, look_aborted h, bne_self_eq_false, doing_pure,
      if_true, Bool.false_eq_true, if_false]
    exact ⟨houtcome, trivial⟩

/-- However the stages take turns, no question comes after the abort signal, a task is made ready to be
applied only while the signal is down, and from the moment it is up nothing is applied. -/
theorem Pipeline.Reaches.halts {p p' : Pipeline} (h : Pipeline.Reaches env time p p') :
    Heeds env p.session p'.session ∧
    (∀ t, ∀ d ∈ departures env t p'.session, d.result.task.state = .applying → d.after.aborted = false) ∧
    (p'.session.aborted = true → Halted env p'.session) := by
  refine ⟨?_, fun t d hd => ready_live hd, halted_of_aborted⟩
  induction h with
  | refl => exact heeds_steady.refl _
  | tail _ hstep ih => exact heeds_steady.trans ih hstep.heeds

/-- An album that is split: one track is taken as it is, and at the other one the import is aborted. -/
def splitAborting : Session := { files := {}, decisions := [.asSingletons, .useAsIs, .abort] }

def plainLibrary : Environment := { config := {}, layout := .template ⟨"one", true⟩ }

def splitBefore : Pipeline :=
  { searched := [splitAlbum], ledger := { writer := ⟨⟨"journal"⟩, 0⟩ }, session := splitAborting }

def splitAfter : Pipeline :=
  { splitBefore with
    searched := []
    resolved := (splitAborting.doing (resolve plainLibrary splitAlbum)).1
    session := (splitAborting.doing (resolve plainLibrary splitAlbum)).2 }

theorem halts_split :
    (splitAfter.session.aborted, splitAfter.resolved.map (·.task.state)) = (true, [.applying, .aborted]) ∧
      Heeds plainLibrary splitAborting splitAfter.session ∧ Halted plainLibrary splitAfter.session := by
  have hstep : Pipeline.Step plainLibrary ⟨2024, 1, 1, 0, 0, 0, 0⟩ splitBefore splitAfter := .resolve rfl
  have hstate : (splitAfter.session.aborted, splitAfter.resolved.map (·.task.state)) =
      (true, [.applying, .aborted]) := by decide +kernel
  obtain ⟨hheeds, -, hhalted⟩ := Pipeline.Reaches.halts (.single hstep)
  exact ⟨hstate, hheeds, hhalted (Prod.mk.inj hstate).1⟩

/-- The parts of a split group are handed on together: one that was ready before the abort signal went up
is handed on ready to be applied. -/
theorem part_ready_after_abort :
    (splitAborting.doing (resolve plainLibrary splitAlbum)).2.aborted = true ∧
      ∃ r ∈ (splitAborting.doing (resolve plainLibrary splitAlbum)).1, r.task.state = .applying := by
  decide +kernel

end Session
end MusicImport
