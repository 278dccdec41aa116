import MusicImport.Proofs.Catalog.Rows
import MusicImport.Proofs.Session.Steps
import MusicImport.Session.Resolve

/-! What a task can fail with while it is settled: what the catalog answers a call with, and nothing that
the task itself would refuse. -/
namespace MusicImport

/-- The calls that the catalog answers. -/
def Call.isCatalog : Call → Bool
  | .findDuplicates | .albumItems | .item | .pathsUnder | .transaction | .add | .addAlbum | .remove
  | .commit | .rollback => true
  | _ => false

namespace Session

variable {α : Type} {env : Environment}

/-- A failure that the catalog answers with: a fault at one of its calls, or an entry that is not
there. -/
def FromCatalog (env : Environment) (e : ServiceFailure) : Prop :=
  (∃ f ∈ env.faults, f.point.call.isCatalog ∧ f.failure = e) ∨ ∃ entity id, e = .notFound entity id

/-- Whatever it answers, an attempt fails with nothing but what the catalog answers. -/
abbrev FailsByCatalog (env : Environment) (x : Attempt ServiceFailure α) : Prop :=
  Yields (fun _ => True) (FromCatalog env) x

theorem FailsByCatalog.bind {β : Type} {x : Attempt ServiceFailure α}
    {f : α → Attempt ServiceFailure β} (hx : FailsByCatalog env x)
    (hf : ∀ a, FailsByCatalog env (f a)) : FailsByCatalog env (x >>= f) :=
  Yields.bind hx fun a _ => hf a

theorem attempt_fails {call : Call} (h : call.isCatalog) : FailsByCatalog env (attempt env call) := by
  intro s
  unfold attempt
  rw [trying_bind, trying_liftM]
  dsimp only
  cases hfault : (s.doing (enter env call)).1 with
  | none => trivial
  | some failure =>
    obtain ⟨f, hf, rfl⟩ := Option.map_eq_some_iff.mp hfault
    have hcall : f.point.call = call := by
      have hat := List.find?_some hf
      unfold CallPoint.isAt at hat
      exact of_decide_eq_true (Bool.and_eq_true_iff.mp hat).1
    exact .inl ⟨f, List.mem_of_find?_eq_some hf, by rwa [hcall], rfl⟩

theorem findDuplicates_fails (identity : Identity) : FailsByCatalog env (findDuplicates env identity) :=
  (attempt_fails rfl).bind fun _ => Yields.of_get.bind fun _ _ => .of_pure trivial

theorem entryTracks_fails (id : EntryId) : FailsByCatalog env (entryTracks env id) := by
  cases id with
  | album id => exact (attempt_fails rfl).bind fun _ => Yields.of_get.bind fun _ _ => .of_pure trivial
  | item id => exact (attempt_fails rfl).bind fun _ => Yields.of_get.bind fun _ _ => .of_pure trivial

theorem begin_fails : FailsByCatalog env (begin env) :=
  (attempt_fails rfl).bind fun _ => Yields.of_get.bind fun _ _ => .of_pure trivial

theorem commit_fails (tx : Catalog) : FailsByCatalog env (commit env tx) :=
  (attempt_fails rfl).bind fun _ _ => trivial

theorem remove_error {c : Catalog} {id : EntryId} {e : ServiceFailure} (h : c.remove id = .error e) :
    ∃ entity id, e = .notFound entity id := by
  cases id with
  | album n =>
    rw [Catalog.remove_album] at h
    split at h
    · cases h
    · exact ⟨_, _, (Except.error.inj h).symm⟩
  | item n =>
    rw [Catalog.remove_item] at h
    split at h
    · cases h
    · exact ⟨_, _, (Except.error.inj h).symm⟩

theorem remove_fails (tx : Catalog) (id : EntryId) : FailsByCatalog env (remove env tx id) := by
  refine (attempt_fails rfl).bind fun _ s => ?_
  rw [trying_except]
  cases h : tx.remove id with
  | ok a => trivial
  | error e => exact .inr (remove_error h)

theorem removeAll_fails (tx : Catalog) (ids : List EntryId) :
    FailsByCatalog env (removeAll env tx ids) := by
  induction ids generalizing tx with
  | nil => exact .of_pure trivial
  | cons id rest ih =>
    refine (remove_fails tx id).bind fun ⟨_, tx⟩ => ?_
    exact (ih tx).bind fun _ => .of_pure trivial

/-- Also where the transaction is given up, it is the catalog that fails. -/
theorem removeOld_fails (t : Task) (existing : List CatalogEntry) :
    FailsByCatalog env (removeOld env t existing) := by
  refine begin_fails.bind fun tx => ?_
  have hremove : FailsByCatalog env
      (tryCatch (removeAll env tx (existing.map (·.id))) fun e => do rollback env; throw e) := by
    refine (removeAll_fails tx _).tryCatch fun e he => ?_
    exact Yields.bind (attempt_fails rfl) fun _ _ => .of_throw he
  refine hremove.bind fun ⟨paths, tx⟩ => ?_
  exact (commit_fails tx).bind fun _ _ => trivial

/-- What a task may fail with before it is applied: what the catalog answers, or that its outcome is
final already. -/
def Cause (env : Environment) (t : Task) (f : ImportFailure) : Prop :=
  ∃ e, f = .service e ∧
    (FromCatalog env e ∨ t.chosen.isSome = true ∧ e = .choiceAlreadyMade t.key)

theorem Cause.congr {t t' : Task} {f : ImportFailure} (h : Cause env t' f) (hkey : t'.key = t.key)
    (hchosen : t'.chosen = t.chosen) : Cause env t f := by
  unfold Cause at h ⊢
  rwa [hkey, hchosen] at h

end Session
end MusicImport
