import MusicImport.Task.Basic

/-! Calls that change a task. A refused call tells its failure, and leaves a task behind all the same. -/
namespace MusicImport

namespace Task

/-- Moves on to a state, if the lifecycle allows it. -/
def transition (t : Task) (next : TaskState) : Except ServiceFailure Task :=
  if t.state.canBecome next then .ok { t with state := next }
  else .error (.invalidTransition t.key t.state next)

/-- A task with an outcome selected. -/
def select (t : Task) (choice : Chosen) : Task := { t with selection := some choice }

/-- A task without a selection. -/
def clearSelection (t : Task) : Task := { t with selection := none }

/-- A refused commitment, with the task as it is left. -/
structure CommitRefusal where
  failure : ServiceFailure
  task : Task

/-- Makes the selection final and enters the state of being applied. The selection is used up
even where the state cannot be entered. -/
def commitChoice (t : Task) : Except CommitRefusal Task :=
  if t.chosen.isSome then .error ⟨.choiceAlreadyMade t.key, t⟩
  else
    match t.selection with
    | none => .error ⟨.noSelection t.key, t⟩
    | some choice =>
      let t := { t with selection := none }
      match t.transition .applying with
      | .ok t => .ok { t with chosen := some choice }
      | .error failure => .error ⟨failure, t⟩

end Task

/-- A call that changes a task, or is refused. -/
inductive TaskCall
  | transition (next : TaskState)
  | setCandidates (ranked : List (Match Float))
  | select (choice : Chosen)
  | clearSelection
  | commitChoice

/-- The task that a call leaves, and the failure of a refused call. -/
def TaskCall.perform (t : Task) : TaskCall → Task × Option ServiceFailure
  | .transition next =>
    match t.transition next with
    | .ok t => (t, none)
    | .error failure => (t, some failure)
  | .setCandidates ranked => ({ t with candidates := ranked }, none)
  | .select choice => (t.select choice, none)
  | .clearSelection => (t.clearSelection, none)
  | .commitChoice =>
    match t.commitChoice with
    | .ok t => (t, none)
    | .error refusal => (refusal.task, some refusal.failure)

end MusicImport
