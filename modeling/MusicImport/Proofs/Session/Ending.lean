import MusicImport.Proofs.Session.Resolving
import MusicImport.Proofs.Task.Lifecycle

/-! How settling a task ends. Through all searches, answers, merges and splits, and whenever an abort is
raised, no step is taken that the lifecycle does not have, and no task goes on to be applied without
the outcome to apply. A second outcome is refused, if the task came with one. -/
namespace MusicImport

/-- What a task refuses: a step that the lifecycle does not have, a second outcome, or to be applied
with none. -/
inductive ServiceFailure.Refusal : ServiceFailure → Prop
  | transition (key : GroupKey) (source target : TaskState) :
      Refusal (.invalidTransition key source target)
  | second (key : GroupKey) : Refusal (.choiceAlreadyMade key)
  | missing (key : GroupKey) : Refusal (.noSelection key)

namespace Session

variable {s : Session} {env : Environment} {t : Task}

/-- A task that is applied next, was left, or has failed for a cause. -/
structure AtEnd (env : Environment) (t : Task) (r : Resolved) : Prop where
  state : r.task.state = .applying ∧ r.task.chosen.isSome ∨ r.task.state = .skipped ∨
    r.task.state = .aborted ∨ r.task.state = .failed
  failed : r.failure.isSome ↔ r.task.state = .failed
  cause : ∀ f, r.failure = some f → Cause env t f

theorem Ended.atEnd {r : Resolved} (h : Ended env t r) : AtEnd env t r := by
  cases h with
  | settled h =>
    refine ⟨?_, ?_, fun f hf => ?_⟩
    · obtain h | h | h := h.state
      · exact .inl h
      · exact .inr (.inl h)
      · exact .inr (.inr (.inl h))
    · rw [h.failure]
      obtain ⟨h, -⟩ | h | h := h.state <;> simp [h]
    · rw [h.failure] at hf
      cases hf
  | failed hakin hstate hfailure hcause =>
    refine ⟨.inr (.inr (.inr hstate)), by simp [hfailure, hstate], fun f hf => ?_⟩
    rw [hfailure] at hf
    cases hf
    exact hcause

/-- The part of a split group has no outcome yet, so it fails by the catalog only. -/
theorem AtEnd.of_part {u : Task} {r : Resolved} (h : AtEnd env u r) (hu : u.chosen = none) :
    AtEnd env t r := by
  refine ⟨h.state, h.failed, fun f hf => ?_⟩
  obtain ⟨e, rfl, he | ⟨hsome, -⟩⟩ := h.cause f hf
  · exact ⟨e, rfl, .inl he⟩
  · rw [hu] at hsome
    cases hsome

theorem exists_part {parts : List Task} {rs : List Resolved} (h : List.Forall₂ (Ended env) parts rs)
    {r : Resolved} (hr : r ∈ rs) : ∃ u ∈ parts, Ended env u r := by
  induction h with
  | nil => cases hr
  | cons hended _ ih =>
    obtain rfl | hr := List.mem_cons.mp hr
    · exact ⟨_, .head _, hended⟩
    · obtain ⟨u, hu, hended⟩ := ih hr
      exact ⟨u, .tail _ hu, hended⟩

/-- A failure of the catalog is a refusal only if somebody made the catalog answer with one. -/
theorem FromCatalog.fault {e : ServiceFailure} (h : FromCatalog env e) (he : e.Refusal) :
    ∃ f ∈ env.faults, f.point.call.isCatalog ∧ f.failure = e := by
  obtain h | ⟨entity, id, rfl⟩ := h
  · exact h
  · cases he

/-- Settling a task brings at least one result if the task has tracks. Each of them has an outcome to be
applied with, or was skipped or aborted, or has failed, and only those that have failed tell why.
A refusal is what the catalog answered, or that of another outcome for a task that came with one. -/
theorem resolve_ends (env : Environment) (s : Session) (h : Waiting t) :
    (t.tracks ≠ [] → (s.doing (resolve env t)).1 ≠ []) ∧
    ∀ r ∈ (s.doing (resolve env t)).1, AtEnd env t r ∧
      ∀ e, e.Refusal → r.failure = some (.service e) →
        (∃ f ∈ env.faults, f.point.call.isCatalog ∧ f.failure = e) ∨
          t.chosen.isSome ∧ e = .choiceAlreadyMade t.key := by
  have hfrom := resolve_from (s := s) env h
  constructor
  · intro htracks hnone
    rw [hnone] at hfrom
    obtain ⟨r, hr, -⟩ | ⟨-, t', hakin, hparts⟩ := hfrom
    · cases hr
    · have hlength := hparts.length_eq
      rw [Task.split, List.length_mapIdx, List.length_nil] at hlength
      have hgrown := hakin.grown
      exact htracks (List.eq_nil_of_length_eq_zero (by omega))
  · intro r hr
    have hend : AtEnd env t r := by
      obtain ⟨whole, hwhole, hended⟩ | ⟨-, t', -, hparts⟩ := hfrom
      · rw [hwhole] at hr
        obtain rfl := List.mem_singleton.mp hr
        exact hended.atEnd
      · obtain ⟨u, hu, hended⟩ := exists_part hparts hr
        exact hended.atEnd.of_part (split_open hu).1.chosen
    refine ⟨hend, fun e he hfailure => ?_⟩
    obtain ⟨e', hsame, hcause⟩ := hend.cause _ hfailure
    obtain rfl : e = e' := by simpa using hsame
    exact hcause.imp_left fun hcatalog => hcatalog.fault he

/-- An album of two tracks, which is split: one of them is to be imported as it is, and the other is
left. The catalog fails when it is asked for duplicates. -/
def splitAlbum : Task :=
  { key := "in", isAlbum := true, state := .grouped
    tracks := [{ path := ⟨"in/a.flac"⟩, title := some "A" }, { path := ⟨"in/b.flac"⟩, title := some "B" }] }

def splitSession : Session := { files := {}, decisions := [.asSingletons, .useAsIs, .skip] }

def lockedCatalog : Environment :=
  { config := {}, layout := .template ⟨"one", true⟩
    faults := [⟨⟨.findDuplicates, 1⟩, .storage "locked"⟩] }

theorem resolve_ends_split :
    ((splitSession.doing (resolve lockedCatalog splitAlbum)).1.map fun r => (r.task.state, r.failure)) =
        [(.failed, some (.service (.storage "locked"))), (.skipped, none)] ∧
      ∀ r ∈ (splitSession.doing (resolve lockedCatalog splitAlbum)).1, AtEnd lockedCatalog splitAlbum r :=
  ⟨by decide +kernel, fun r hr => ((resolve_ends lockedCatalog splitSession (.inl rfl)).2 r hr).1⟩

/-- An outcome of a file is committed, cannot be applied, and the file is to be settled again. -/
def failedBefore : List TaskCall :=
  [.transition .grouped, .transition .searching, .select .asIs, .transition .duplicateCheck, .commitChoice,
    .transition .failed, .transition .grouped]

def willingSession : Session := { files := {}, decisions := [.useAsIs] }

def openCatalog : Environment := { lockedCatalog with faults := [] }

theorem failedBefore_refused : (willingSession.doing (resolve openCatalog (Task.loneFile.run failedBefore))).1.map
    (·.failure) = [some (.service (.choiceAlreadyMade "a.mp3"))] := by decide +kernel

/-- The outcome from before is still there, so that another one is refused, though the catalog is not at fault. -/
theorem second_outcome_refused :
    ¬ ∀ (env : Environment) (s : Session) (new : Task) (calls : List TaskCall), new.Untouched →
      Waiting (new.run calls) → (new.run calls).tracks ≠ [] →
      ∀ r ∈ (s.doing (resolve env (new.run calls))).1, ∀ e, e.Refusal → r.failure = some (.service e) →
        ∃ f ∈ env.faults, f.point.call.isCatalog ∧ f.failure = e := by
  intro hall
  obtain ⟨r, hr, hfailure⟩ := List.map_eq_singleton_iff.mp failedBefore_refused
  have hresult : r ∈ (willingSession.doing (resolve openCatalog (Task.loneFile.run failedBefore))).1 := by
    rw [hr]
    exact .head _
  obtain ⟨f, hf, -⟩ := hall openCatalog willingSession Task.loneFile failedBefore Task.loneFile_untouched
    (.inl rfl) (List.cons_ne_nil _ _) r hresult _ (.second "a.mp3") hfailure
  cases hf

end Session
end MusicImport
