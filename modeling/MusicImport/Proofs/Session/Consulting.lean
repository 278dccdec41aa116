import MusicImport.Proofs.Session.Calling

/-! Steps that only ask around: they read the files, the tags and the catalog, and change none of
them. -/
namespace MusicImport

/-- The event of a question about duplicates. -/
def Event.asksDuplicate : Event → Bool
  | .duplicate _ _ => true
  | _ => false

namespace Session

variable {ε α : Type} {s s' u : Session} {env : Environment}

/-- What is picked out of the record that two sessions have between them. -/
def Logs (pick : Event → Option α) (s : Session) (picked : List α) (s' : Session) : Prop :=
  ∃ events, s'.log = s.log ++ events ∧ events.filterMap pick = picked

namespace Logs

variable {pick : Event → Option α} {picked later : List α}

theorem of_log (h : s'.log = s.log) : Logs pick s [] s' := ⟨[], by simp [h], rfl⟩

theorem trans (h : Logs pick s picked u) (h' : Logs pick u later s') : Logs pick s (picked ++ later) s' := by
  obtain ⟨es, hu, rfl⟩ := h
  obtain ⟨fs, hs', rfl⟩ := h'
  exact ⟨es ++ fs, by rw [hs', hu, List.append_assoc], List.filterMap_append⟩

/-- Where nothing is picked out of single steps, nothing is picked out of all of them. -/
theorem steady (pick : Event → Option α) : Steady fun s s' => Logs pick s [] s' :=
  ⟨fun _ => .of_log rfl, fun h h' => h.trans h'⟩

/-- Calls are not recorded. -/
theorem calls (pick : Event → Option α) (env : Environment) : Calls env fun s s' => Logs pick s [] s' :=
  ⟨steady pick, fun _ _ _ => .of_log rfl⟩

end Logs

/-- The catalog is as it was, an abort stays raised, and no question about duplicates was put. -/
structure Works (s s' : Session) : Prop where
  catalog : s'.catalog = s.catalog
  aborted : s.aborted = true → s'.aborted = true
  log : ∃ events, s'.log = s.log ++ events ∧ ∀ e ∈ events, e.asksDuplicate = false

theorem Works.refl (s : Session) : Works s s := ⟨rfl, id, [], by simp, by simp⟩

theorem Works.trans (h : Works s u) (h' : Works u s') : Works s s' where
  catalog := h'.catalog.trans h.catalog
  aborted ha := h'.aborted (h.aborted ha)
  log := by
    obtain ⟨es, hs, he⟩ := h.log
    obtain ⟨fs, hu, hf⟩ := h'.log
    refine ⟨es ++ fs, by rw [hu, hs, List.append_assoc], fun e hmem => ?_⟩
    obtain hmem | hmem := List.mem_append.mp hmem
    · exact he e hmem
    · exact hf e hmem

/-- Files and tags are as they were, too. -/
structure Consults (s s' : Session) : Prop extends Works s s' where
  files : s'.files = s.files
  tags : s'.tags = s.tags

theorem Consults.refl (s : Session) : Consults s s := ⟨.refl s, rfl, rfl⟩

theorem Consults.trans (h : Consults s u) (h' : Consults u s') : Consults s s' :=
  ⟨h.toWorks.trans h'.toWorks, h'.files.trans h.files, h'.tags.trans h.tags⟩

theorem consults_steady : Steady Consults := ⟨.refl, .trans⟩

theorem enter_consults (env : Environment) (call : Call) : Does Consults (enter env call) :=
  fun _ => ⟨⟨rfl, fun h => by simp [enter, h], [], by simp [enter], by simp⟩, rfl, rfl⟩

theorem record_consults {e : Event} (h : e.asksDuplicate = false) : Does Consults (record e) :=
  fun _ => ⟨⟨rfl, id, [e], rfl, by simpa using h⟩, rfl, rfl⟩

theorem consults_calls (env : Environment) : Calls env Consults :=
  ⟨consults_steady, fun call _ => enter_consults env call⟩

theorem attempt_consults (env : Environment) (call : Call) : Tries Consults (attempt env call) := by
  refine consults_steady.tries_bind (enter_consults env call).lift fun failure => ?_
  split
  · exact consults_steady.tries_throw _
  · exact consults_steady.tries_pure _

theorem pathsUnder_consults (env : Environment) (dir : FilePath) :
    Tries Consults (pathsUnder env dir) := (consults_calls env).pathsUnder dir

theorem entryTracks_consults (env : Environment) (id : EntryId) :
    Tries Consults (entryTracks env id) := (consults_calls env).entryTracks id

theorem pathsUnderAll_consults (env : Environment) (dirs : List FilePath) :
    Tries Consults (pathsUnderAll env dirs) := (consults_calls env).pathsUnderAll dirs

theorem claimedPaths_consults (env : Environment) (t : Task) (dests : List FilePath) :
    Tries Consults (claimedPaths env t dests) := (consults_calls env).claimedPaths t dests

theorem removeAll_consults (env : Environment) (tx : Catalog) (ids : List EntryId) :
    Tries Consults (removeAll env tx ids) := (consults_calls env).removeAll tx ids

theorem notify_consults (env : Environment) (event : ImportEvent) (observers : List String) :
    Does Consults (notify env event observers) := by
  induction observers with
  | nil => exact consults_steady.does_pure _
  | cons observer rest ih =>
    exact consults_steady.does_bind (record_consults rfl) fun _ =>
      consults_steady.does_bind (enter_consults env _) fun _ => ih

theorem begin_consults (env : Environment) : Tries Consults (begin env) := (consults_calls env).begin

theorem rollback_consults (env : Environment) : Tries Consults (rollback env) :=
  (consults_calls env).rollback

/-- The rows that a commit would put in place are made without touching the catalog. -/
theorem commitRows_prepare (env : Environment) (tx : Catalog) (t : Task) (choice : Chosen)
    (placed : List Track) :
    Tries Consults (tryCatch (writeRows env tx t choice placed) fun e => do
      regardless (rollback env)
      throw e) :=
  consults_steady.tries_tryCatch ((consults_calls env).writeRows tx t choice placed) fun _ =>
    consults_steady.tries_bind (consults_steady.regardless (rollback_consults env)).lift fun _ =>
      consults_steady.tries_throw _

/-- A commit that fails leaves the catalog as it was. -/
theorem commitRows_error {t : Task} {choice : Chosen} {placed : List Track} {e : ServiceFailure}
    (h : s.trying (commitRows env t choice placed) = (.error e, s')) : Consults s s' := by
  unfold commitRows at h
  obtain h | ⟨tx, u, hbegin, h⟩ := trying_bind_error.mp h
  · exact (begin_consults env).result h
  have hu := (begin_consults env).result hbegin
  obtain h | ⟨⟨ids, rows⟩, v, hrows, h⟩ := trying_bind_error.mp h
  · exact hu.trans ((commitRows_prepare env tx t choice placed).result h)
  have hv := hu.trans ((commitRows_prepare env tx t choice placed).result hrows)
  obtain h | ⟨_, w, -, h⟩ := trying_bind_error.mp h
  · obtain h | ⟨_, w, -, h⟩ := trying_bind_error.mp h
    · exact hv.trans ((attempt_consults env .commit).result h)
    · simp at h
  · simp at h

/-- A commit that succeeds changes nothing but the catalog. -/
theorem commitRows_ok {t : Task} {choice : Chosen} {placed : List Track} {ids : List EntryId}
    (h : s.trying (commitRows env t choice placed) = (.ok ids, s')) :
    Consults s { s' with catalog := s.catalog } := by
  unfold commitRows at h
  obtain ⟨tx, u, hbegin, h⟩ := trying_bind_ok.mp h
  obtain ⟨⟨ids', rows⟩, v, hrows, h⟩ := trying_bind_ok.mp h
  obtain ⟨_, w, hcommit, h⟩ := trying_bind_ok.mp h
  obtain ⟨_, x, hattempt, hset⟩ := trying_bind_ok.mp hcommit
  have hx := ((begin_consults env).result hbegin).trans
    (((commitRows_prepare env tx t choice placed).result hrows).trans
      ((attempt_consults env .commit).result hattempt))
  simp only [trying_modify, Prod.mk.injEq, true_and] at hset
  simp only [trying_pure, Prod.mk.injEq, Except.ok.injEq] at h
  obtain ⟨rfl, rfl⟩ := h
  subst hset
  exact ⟨⟨rfl, hx.aborted, hx.log⟩, hx.files, hx.tags⟩

end Session
end MusicImport
