import MusicImport.Task.Call

/-! The life of a task, call by call. An outcome is committed once and for good, and only a task with one is
applied. A refused call leaves the task as it was, but for a commitment that comes at the wrong time: it uses
up the selection. -/
namespace MusicImport

namespace TaskState

theorem canBecome_applying {s : TaskState} : s.canBecome .applying = true ↔ s = .duplicateCheck := by
  cases s <;> decide

theorem canBecome_done {s : TaskState} : s.canBecome .done = true ↔ s = .applying := by
  cases s <;> decide

end TaskState

variable {t u : Task} {call : TaskCall} {calls : List TaskCall} {failure : Option ServiceFailure}
  {choice : Chosen}

/-- All that a call can do to a task, with the failure that it tells. -/
inductive TaskCall.Effect (t : Task) : TaskCall → Task → Option ServiceFailure → Prop
  | moves {next : TaskState} (hnext : t.state.canBecome next = true) :
      Effect t (.transition next) { t with state := next } none
  | stays {next : TaskState} (hnext : t.state.canBecome next = false) :
      Effect t (.transition next) t (some (.invalidTransition t.key t.state next))
  | ranks (ranked : List (Match Float)) :
      Effect t (.setCandidates ranked) { t with candidates := ranked } none
  | selects (choice : Chosen) : Effect t (.select choice) { t with selection := some choice } none
  | clears : Effect t .clearSelection { t with selection := none } none
  | commits {choice : Chosen} (hchosen : t.chosen = none) (hselection : t.selection = some choice)
      (hstate : t.state = .duplicateCheck) :
      Effect t .commitChoice
        { t with state := .applying, selection := none, chosen := some choice } none
  | repeated (hchosen : t.chosen.isSome) :
      Effect t .commitChoice t (some (.choiceAlreadyMade t.key))
  | unselected (hchosen : t.chosen = none) (hselection : t.selection = none) :
      Effect t .commitChoice t (some (.noSelection t.key))
  | untimely (hchosen : t.chosen = none) (hselection : t.selection.isSome)
      (hstate : t.state ≠ .duplicateCheck) :
      Effect t .commitChoice { t with selection := none }
        (some (.invalidTransition t.key t.state .applying))

namespace TaskCall

theorem effect_perform (t : Task) (call : TaskCall) :
    Effect t call (call.perform t).1 (call.perform t).2 := by
  cases call with
  | transition next =>
    cases hnext : t.state.canBecome next with
    | true => simpa [perform, Task.transition, hnext] using Effect.moves hnext
    | false => simpa [perform, Task.transition, hnext] using Effect.stays hnext
  | setCandidates ranked => exact .ranks ranked
  | select choice => exact .selects choice
  | clearSelection => exact .clears
  | commitChoice =>
    cases hchosen : t.chosen with
    | some choice =>
      have hrepeated : t.chosen.isSome := by simp [hchosen]
      simpa [perform, Task.commitChoice, hrepeated] using Effect.repeated hrepeated
    | none =>
      cases hselection : t.selection with
      | none =>
        simpa [perform, Task.commitChoice, hchosen, hselection] using
          Effect.unselected hchosen hselection
      | some choice =>
        by_cases hstate : t.state = .duplicateCheck
        · have hnext : t.state.canBecome .applying = true := TaskState.canBecome_applying.mpr hstate
          simpa [perform, Task.commitChoice, Task.transition, hchosen, hselection, hnext] using
            Effect.commits hchosen hselection hstate
        · have hnext : t.state.canBecome .applying = false := by
            rw [← Bool.not_eq_true, TaskState.canBecome_applying]
            exact hstate
          have hselected : t.selection.isSome := by simp [hselection]
          simpa [perform, Task.commitChoice, Task.transition, hchosen, hselection, hnext] using
            Effect.untimely hchosen hselected hstate

namespace Effect

theorem chosen (h : Effect t call u failure) (hchosen : t.chosen = some choice) :
    u.chosen = some choice := by
  cases h with
  | commits hnone => rw [hnone] at hchosen; cases hchosen
  | _ => exact hchosen

/-- Only a commitment that is not refused adds an outcome. -/
theorem adds_chosen (h : Effect t call u failure) (hnone : t.chosen = none) (hchosen : u.chosen.isSome) :
    call = .commitChoice ∧ failure = none := by
  cases h with
  | commits => exact ⟨rfl, rfl⟩
  | _ =>
    simp only [hnone] at hchosen
    cases hchosen

theorem of_commit (h : Effect t .commitChoice u none) :
    t.chosen = none ∧ t.selection.isSome ∧ u.chosen = t.selection := by
  cases h with
  | commits hchosen hselection => exact ⟨hchosen, by rw [hselection]; rfl, hselection.symm⟩

theorem terminal (h : Effect t call u failure) (hend : t.state.isTerminal = true) :
    u.state = t.state := by
  cases h with
  | moves hnext =>
    rw [TaskState.canBecome_eq_false_of_isTerminal hend] at hnext
    cases hnext
  | commits _ _ hstate => rw [hstate] at hend; cases hend
  | _ => rfl

theorem enters_done (h : Effect t call u failure) (hbefore : t.state ≠ .done)
    (hdone : u.state = .done) : t.state = .applying := by
  cases h with
  | moves hnext => exact TaskState.canBecome_done.mp (hdone ▸ hnext)
  | commits => cases hdone
  | _ => exact absurd hdone hbefore

theorem enters_applying (h : Effect t call u failure) (hbefore : t.state ≠ .applying)
    (happlying : u.state = .applying) : call = .commitChoice ∨ call = .transition .applying := by
  cases h with
  | @moves next =>
    have hnext : next = .applying := happlying
    exact .inr (hnext ▸ rfl)
  | commits => exact .inl rfl
  | _ => exact absurd happlying hbefore

end Effect

end TaskCall

namespace Task

/-- A task as it is made: for a group, or for a part of one. -/
structure Untouched (t : Task) : Prop where
  state : t.state = .pending ∨ t.state = .grouped
  candidates : t.candidates = []
  selection : t.selection = none
  chosen : t.chosen = none

theorem untouched_of_mem_split {part : Task} (h : part ∈ t.split) : part.Untouched := by
  obtain ⟨i, hi, rfl⟩ := List.mem_mapIdx.mp h
  exact ⟨.inr rfl, rfl, rfl, rfl⟩

/-- The task after calls. -/
def run : Task → List TaskCall → Task
  | t, [] => t
  | t, call :: rest => run (call.perform t).1 rest

end Task

/-- A call of a run, with the task before and after it. -/
structure TaskMoment where
  before : Task
  call : TaskCall
  after : Task
  failure : Option ServiceFailure

def Task.moments : Task → List TaskCall → List TaskMoment
  | _, [] => []
  | t, call :: rest => ⟨t, call, (call.perform t).1, (call.perform t).2⟩ :: moments (call.perform t).1 rest

namespace TaskMoment

/-- The task comes into a state. -/
def Enters (m : TaskMoment) (s : TaskState) : Prop := m.before.state ≠ s ∧ m.after.state = s

/-- A commitment that is not refused. -/
def Commits (m : TaskMoment) : Prop := m.call = .commitChoice ∧ m.failure = none

/-- It finds no outcome, and makes one of the selection. -/
theorem Commits.of_effect {m : TaskMoment} (h : m.Commits)
    (heffect : TaskCall.Effect m.before m.call m.after m.failure) :
    m.before.chosen = none ∧ m.before.selection.isSome ∧ m.after.chosen = m.before.selection := by
  obtain ⟨hcall, hfailure⟩ := h
  rw [hcall, hfailure] at heffect
  exact heffect.of_commit

/-- What a call owes to the life of its task; `last` is the task that the run ends with. -/
structure Lawful (last : Task) (m : TaskMoment) : Prop where
  chosen_stays : ∀ choice, m.before.chosen = some choice →
    m.after.chosen = some choice ∧ last.chosen = some choice
  chosen_committed : m.before.chosen = none → m.after.chosen.isSome → m.Commits
  commits_selection : m.Commits → m.before.chosen = none ∧ m.before.selection.isSome ∧
    m.after.chosen = m.before.selection
  chosen_applied : m.after.state = .applying ∨ m.after.state = .done → m.after.chosen.isSome
  done_applied : m.Enters .done → m.before.state = .applying
  terminal_stays : m.before.state.isTerminal = true →
    m.after.state = m.before.state ∧ last.state = m.before.state

end TaskMoment

namespace Task

theorem mem_moments {m : TaskMoment} (hm : m ∈ t.moments calls) :
    m.call ∈ calls ∧ TaskCall.Effect m.before m.call m.after m.failure := by
  induction calls generalizing t with
  | nil => cases hm
  | cons call rest ih =>
    cases hm with
    | head => exact ⟨.head _, TaskCall.effect_perform t call⟩
    | tail _ hm => exact ⟨.tail _ (ih hm).1, (ih hm).2⟩

/-- A run that never moves into the state of being applied enters it by committing. -/
theorem enters_by_commit (hcalls : .transition .applying ∉ calls) :
    ∀ m ∈ t.moments calls, m.Enters .applying → m.call = .commitChoice := by
  rintro m hm ⟨hbefore, hafter⟩
  obtain ⟨hmem, heffect⟩ := mem_moments hm
  rcases heffect.enters_applying hbefore hafter with hcommit | hmove
  · exact hcommit
  · exact absurd (hmove ▸ hmem) hcalls

theorem run_chosen (hchosen : t.chosen = some choice) (calls : List TaskCall) :
    (t.run calls).chosen = some choice := by
  induction calls generalizing t with
  | nil => exact hchosen
  | cons call rest ih => exact ih ((TaskCall.effect_perform t call).chosen hchosen)

theorem run_terminal (hend : t.state.isTerminal = true) (calls : List TaskCall) :
    (t.run calls).state = t.state := by
  induction calls generalizing t with
  | nil => rfl
  | cons call rest ih =>
    have hstate := (TaskCall.effect_perform t call).terminal hend
    exact (ih (by rw [hstate]; exact hend)).trans hstate

/-- Once an outcome is committed, every later commitment is refused. -/
theorem not_commits_of_chosen (hchosen : t.chosen = some choice) {m : TaskMoment}
    (hm : m ∈ t.moments calls) : ¬ m.Commits := by
  induction calls generalizing t with
  | nil => cases hm
  | cons call rest ih =>
    have heffect := TaskCall.effect_perform t call
    cases hm with
    | head =>
      intro hcommits
      rw [(hcommits.of_effect heffect).1] at hchosen
      cases hchosen
    | tail _ hm => exact ih (heffect.chosen hchosen) hm

theorem commits_once (t : Task) (calls : List TaskCall) :
    (t.moments calls).Pairwise fun a b => ¬ (a.Commits ∧ b.Commits) := by
  induction calls generalizing t with
  | nil => exact .nil
  | cons call rest ih =>
    refine List.pairwise_cons.mpr ⟨?_, ih _⟩
    rintro m hm ⟨hcommits, hlater⟩
    obtain ⟨-, hselected, hchosen⟩ := hcommits.of_effect (TaskCall.effect_perform t call)
    obtain ⟨choice, hselection⟩ := Option.isSome_iff_exists.mp hselected
    exact not_commits_of_chosen (hchosen.trans hselection) hm hlater

/-- The invariant of a run: only a task with an outcome is applied. -/
def Sound (t : Task) : Prop := t.state = .applying ∨ t.state = .done → t.chosen.isSome

theorem Untouched.sound (h : t.Untouched) : t.Sound := by
  intro happlied
  rcases h.state with hstate | hstate <;> simp [hstate] at happlied

/-- A call keeps the invariant where it enters the state of being applied by a commitment at most. -/
theorem Sound.perform (h : t.Sound) (heffect : TaskCall.Effect t call u failure)
    (hentry : t.state ≠ .applying → u.state = .applying → call = .commitChoice) : u.Sound := by
  intro happlied
  cases heffect with
  | @moves next hnext =>
    rcases happlied with happlying | hdone
    · by_cases hbefore : t.state = .applying
      · exact h (.inl hbefore)
      · cases hentry hbefore happlying
    · have hdone : next = .done := hdone
      exact h (.inl (TaskState.canBecome_done.mp (hdone ▸ hnext)))
  | commits => rfl
  | _ => exact h happlied

theorem moments_lawful (hsound : t.Sound)
    (hentry : ∀ m ∈ t.moments calls, m.Enters .applying → m.call = .commitChoice) :
    ∀ m ∈ t.moments calls, m.Lawful (t.run calls) := by
  induction calls generalizing t with
  | nil => exact fun m hm => nomatch hm
  | cons call rest ih =>
    have heffect := TaskCall.effect_perform t call
    have hnext : (call.perform t).1.Sound :=
      hsound.perform heffect fun hbefore hafter => hentry _ (.head _) ⟨hbefore, hafter⟩
    intro m hm
    cases hm with
    | tail _ hm => exact ih hnext (fun m hm => hentry m (.tail _ hm)) m hm
    | head =>
      constructor
      case chosen_stays =>
        intro choice hchosen
        exact ⟨heffect.chosen hchosen, run_chosen (heffect.chosen hchosen) rest⟩
      case chosen_committed => exact heffect.adds_chosen
      case commits_selection => exact fun hcommits => hcommits.of_effect heffect
      case chosen_applied => exact hnext
      case done_applied => exact fun hdone => heffect.enters_done hdone.1 hdone.2
      case terminal_stays =>
        intro hend
        exact ⟨heffect.terminal hend, run_terminal hend (call :: rest)⟩

/-- Over any run of calls from a new task that enters the state of being applied only by committing, no two
commitments succeed, also when the task fails and starts again. A commitment makes an outcome of the
selection, nothing else makes one, and it stays to the end. Only a task with an outcome is applied or done,
it is done only after it was applied, and it never leaves a state that is terminal. -/
theorem run_lifecycle (hnew : t.Untouched)
    (hentry : ∀ m ∈ t.moments calls, m.Enters .applying → m.call = .commitChoice) :
    ((t.moments calls).Pairwise fun a b => ¬ (a.Commits ∧ b.Commits)) ∧
    ∀ m ∈ t.moments calls, m.Lawful (t.run calls) :=
  ⟨commits_once t calls, moments_lawful hnew.sound hentry⟩

/-- A file on its own, as it is found. -/
def loneFile : Task := { key := "a.mp3", tracks := [{ path := ⟨"a.mp3"⟩ }], isAlbum := false }

theorem loneFile_untouched : loneFile.Untouched := ⟨.inl rfl, rfl, rfl, rfl⟩

/-- An outcome is committed, applying it fails, and the second round ends with another commitment. -/
def failedRound : List TaskCall :=
  [.transition .grouped, .transition .searching, .select .asIs, .transition .duplicateCheck, .commitChoice,
    .transition .failed, .transition .grouped, .transition .searching, .transition .duplicateCheck,
    .select .asIs, .commitChoice]

theorem run_lifecycle_failedRound : loneFile.Untouched ∧
    (∀ m ∈ loneFile.moments failedRound, m.Enters .applying → m.call = .commitChoice) ∧
    ((loneFile.moments failedRound).Pairwise fun a b => ¬ (a.Commits ∧ b.Commits)) ∧
    ∀ m ∈ loneFile.moments failedRound, m.Lawful (loneFile.run failedRound) := by
  have hentry : ∀ m ∈ loneFile.moments failedRound, m.Enters .applying → m.call = .commitChoice :=
    enters_by_commit (by simp [failedRound])
  exact ⟨loneFile_untouched, hentry, run_lifecycle loneFile_untouched hentry⟩

/-- The second commitment is refused: the outcome of the first is still there. -/
example : (loneFile.run failedRound).state = .duplicateCheck ∧
    (loneFile.moments failedRound).getLast?.bind (·.failure) = some (.choiceAlreadyMade "a.mp3") :=
  ⟨rfl, rfl⟩

end Task

namespace TaskCall

/-- An outcome is selected and none was committed, but the task is not at the check for duplicates. -/
def Untimely (t : Task) : Prop :=
  t.chosen = none ∧ t.selection.isSome ∧ t.state ≠ .duplicateCheck

/-- A refused call leaves the task as it was, whatever the task, unless it is an untimely commitment. That
one leaves everything but the selection, which is lost. -/
theorem refused_leaves {failure : ServiceFailure} (h : (call.perform t).2 = some failure) :
    ((call.perform t).1 = t ↔ ¬ (call = .commitChoice ∧ Untimely t)) ∧
    (call = .commitChoice → Untimely t → (call.perform t).1 = { t with selection := none } ∧
      failure = .invalidTransition t.key t.state .applying) := by
  have heffect := effect_perform t call
  rw [h] at heffect
  generalize (call.perform t).1 = u at heffect ⊢
  cases heffect with
  | stays => simp
  | repeated hchosen =>
    have hnot : ¬ Untimely t := by
      rintro ⟨hnone, -, -⟩
      rw [hnone] at hchosen
      cases hchosen
    simp [hnot]
  | unselected _ hnone =>
    have hnot : ¬ Untimely t := by
      rintro ⟨-, hselection, -⟩
      rw [hnone] at hselection
      cases hselection
    simp [hnot]
  | untimely hchosen hselection hstate =>
    have huntimely : Untimely t := ⟨hchosen, hselection, hstate⟩
    have hchanged : { t with selection := none } ≠ t := by
      intro heq
      rw [← heq] at hselection
      cases hselection
    simp [huntimely, hchanged]

/-- A commitment before the check for duplicates is refused, and the selection is gone. -/
theorem refused_leaves_selected :
    (commitChoice.perform (Task.loneFile.run [.select .asIs])).2 =
      some (.invalidTransition "a.mp3" .pending .applying) ∧
    (commitChoice.perform (Task.loneFile.run [.select .asIs])).1 = Task.loneFile := by
  have hfailure : (commitChoice.perform (Task.loneFile.run [.select .asIs])).2 =
      some (.invalidTransition "a.mp3" .pending .applying) := rfl
  obtain ⟨-, huntimely⟩ := refused_leaves hfailure
  obtain ⟨hleft, -⟩ := huntimely rfl ⟨rfl, rfl, by decide⟩
  exact ⟨hfailure, hleft⟩

/-- A refused call can change a task that calls have led to. -/
theorem refused_call_changes :
    ¬ ∀ (t : Task) (calls : List TaskCall) (call : TaskCall) (failure : ServiceFailure), t.Untouched →
      (call.perform (t.run calls)).2 = some failure →
      (call.perform (t.run calls)).1.state = (t.run calls).state ∧
      (call.perform (t.run calls)).1.candidates = (t.run calls).candidates ∧
      (call.perform (t.run calls)).1.selection = (t.run calls).selection ∧
      (call.perform (t.run calls)).1.chosen = (t.run calls).chosen := by
  intro h
  obtain ⟨-, -, hselection, -⟩ :=
    h Task.loneFile [.select .asIs] .commitChoice (.invalidTransition "a.mp3" .pending .applying)
      Task.loneFile_untouched rfl
  cases hselection

end TaskCall
end MusicImport
