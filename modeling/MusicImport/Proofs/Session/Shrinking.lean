import MusicImport.Proofs.Session.Committing
import MusicImport.Proofs.Session.Rounds

/-! Settling tasks takes rows out of the catalog, where old entries are removed, and puts none in. -/
namespace MusicImport
namespace Session

open Catalog

variable {α : Type} {s s' : Session} {env : Environment} {t : Task}

/-- Rows may go, and none come. -/
def Shrinks (s s' : Session) : Prop := s'.catalog.items.Sublist s.catalog.items

theorem Consults.shrinks (h : Consults s s') : Shrinks s s' := by
  unfold Shrinks
  exact h.catalog ▸ List.Sublist.refl _

theorem shrinks_steady : Steady Shrinks := ⟨fun _ => .refl _, fun h h' => List.Sublist.trans h' h⟩

theorem does_shrinks {x : Act α} (h : Does Consults x) : Does Shrinks x := fun s => (h s).shrinks

theorem askDuplicate_shrinks (env : Environment) (t : Task) (existing : List CatalogEntry) :
    Does Shrinks (askDuplicate env t existing) := by
  have hrecord : Does Shrinks (record (.duplicate t.key existing)) := fun _ => List.Sublist.refl _
  refine shrinks_steady.does_bind hrecord fun _ => ?_
  refine shrinks_steady.does_bind (does_shrinks (enter_consults env _)) fun _ => ?_
  intro s
  simp only [doing_bind, doing_get]
  split
  · exact List.Sublist.refl _
  · exact List.Sublist.refl _

/-- What is removed is given up where a removal fails. -/
theorem removeOld_prepare (env : Environment) (tx : Catalog) (ids : List EntryId) :
    Tries Consults (tryCatch (removeAll env tx ids) fun e => do rollback env; throw e) :=
  consults_steady.tries_tryCatch (removeAll_consults env tx _) fun _ =>
    consults_steady.tries_bind (rollback_consults env) fun _ => consults_steady.tries_throw _

/-- A removal that fails leaves everything as it was. -/
theorem removeOld_error {existing : List CatalogEntry} {e : ServiceFailure}
    (h : s.trying (removeOld env t existing) = (.error e, s')) : Consults s s' := by
  obtain h | ⟨tx, u, hbegin, h⟩ := trying_bind_error.mp h
  · exact (begin_consults env).result h
  have hu := (begin_consults env).result hbegin
  obtain h | ⟨⟨paths, tx'⟩, v, hremove, h⟩ := trying_bind_error.mp h
  · exact hu.trans ((removeOld_prepare env tx _).result h)
  have hv := hu.trans ((removeOld_prepare env tx _).result hremove)
  obtain h | ⟨_, w, -, h⟩ := trying_bind_error.mp h
  · obtain h | ⟨_, w, -, h⟩ := trying_bind_error.mp h
    · exact hv.trans ((attempt_consults env .commit).result h)
    · simp at h
  · simp at h

/-- The files of entries that go, apart from those that a task brings. -/
def outdated (c : Catalog) (t : Task) (ids : List EntryId) : List FilePath :=
  (c.removedPaths ids).filter fun p => !isClaimed (t.tracks.map (·.path)) p

/-- A removal that succeeds puts the catalog without the entries in place, and removes their files. -/
theorem removeOld_ok {existing : List CatalogEntry}
    (h : s.trying (removeOld env t existing) = (.ok (), s')) :
    s.catalog.Removes (existing.map (·.id)) s'.catalog ∧
      s'.files = s.files.removeFiles (outdated s.catalog t (existing.map (·.id))) := by
  obtain ⟨tx, u, hbegin, hrest⟩ := trying_bind_ok.mp h
  obtain ⟨⟨paths, tx'⟩, v, hremove, hrest⟩ := trying_bind_ok.mp hrest
  obtain ⟨_, w, hcommit, hset⟩ := trying_bind_ok.mp hrest
  obtain ⟨_, x, hattempt, hmodify⟩ := trying_bind_ok.mp hcommit
  simp only [trying_modify, Prod.mk.injEq, true_and] at hset hmodify
  subst hset hmodify
  -- Until the rows are in place the files are as they were.
  have hx := ((begin_consults env).result hbegin).trans (((removeOld_prepare env tx _).result hremove).trans
    ((attempt_consults env .commit).result hattempt))
  rw [begin_ok hbegin] at hremove
  obtain ⟨hremoves, rfl⟩ := removeAll_ok (tryCatch_rethrow_ok hremove)
  exact ⟨hremoves, by rw [← hx.files]; rfl⟩

/-- Old entries go in one transaction. -/
theorem removeOld_shrinks (env : Environment) (t : Task) (existing : List CatalogEntry) :
    Tries Shrinks (removeOld env t existing) := by
  intro s
  rcases h : s.trying (removeOld env t existing) with ⟨e | _, s'⟩
  · exact (removeOld_error h).shrinks
  · rw [Shrinks, (removeOld_ok h).1.items_eq]
    exact List.filter_sublist

theorem shrinks_bears (env : Environment) : Bears env Shrinks :=
  .of_consults shrinks_steady Consults.shrinks (askDuplicate_shrinks env) (removeOld_shrinks env)

/-- Whatever is decided about a task, resolving it puts no rows into the catalog. -/
theorem resolve_shrinks (env : Environment) (t : Task) : Does Shrinks (resolve env t) :=
  (shrinks_bears env).resolves t

end Session
end MusicImport
