import MusicImport.Proofs.Session.Failing
import MusicImport.Proofs.Session.Settling

/-! What the question about duplicates makes of a task. A merge takes in at least one entry of the catalog
that the task did not replace before, and leaves the catalog as it is: it happens no more often than
there are entries. A task whose rows an earlier attempt committed is not asked about. -/
namespace MusicImport

namespace Catalog

/-- The entries of a catalog. -/
def entries (c : Catalog) : List EntryId :=
  c.albums.map (fun row => .album row.id) ++ c.items.map fun row => .item row.id

theorem length_entries (c : Catalog) : c.entries.length = c.albums.length + c.items.length := by
  simp [entries]

theorem mem_entries_of_duplicate {c : Catalog} {identity : Identity} {e : CatalogEntry}
    (h : e ∈ c.findDuplicates identity) : e.id ∈ c.entries := by
  unfold findDuplicates at h
  split at h
  · obtain ⟨row, hrow, rfl⟩ := List.mem_map.mp h
    exact List.mem_append_left _ (List.mem_map_of_mem (List.mem_filter.mp hrow).1)
  · obtain ⟨row, hrow, rfl⟩ := List.mem_map.mp h
    exact List.mem_append_right _ (List.mem_map_of_mem (List.mem_filter.mp hrow).1)

end Catalog

namespace Session

variable {α : Type} {s s' : Session} {env : Environment} {t t' : Task}

/-- A setback of a task that can still be marked as failed. -/
structure SetbackOf (env : Environment) (t : Task) (b : Setback) : Prop where
  akin : t.Akin b.task
  live : b.task.state.isFinished = false
  cause : Cause env t b.failure

theorem SetbackOf.of_stays (h : t.Stays t') {b : Setback} (hb : SetbackOf env t' b) :
    SetbackOf env t b :=
  ⟨h.toAkin.trans hb.akin, hb.live, hb.cause.congr h.key h.chosen⟩

/-- A task with an outcome selected, on its way to be applied. -/
structure Ready (t t' : Task) : Prop extends t.Stays t' where
  state : t'.state = .duplicateCheck
  selected : t'.selection.isSome

/-- What the question about duplicates makes of a task. -/
def DuplicatesOf (t : Task) : DuplicateOutcome → Prop
  | .proceed t' => Ready t t'
  | .finished t' => t.Stays t' ∧ (t'.state = .skipped ∨ t'.state = .aborted)
  | .merged t' => t.Stays t' ∧ t'.state = .searching

theorem onBehalf_yields {x : Attempt ServiceFailure α} (hlive : t.state.isFinished = false)
    (hx : FailsByCatalog env x) : Yields (fun _ => True) (SetbackOf env t) (onBehalf t x) :=
  Yields.adapt hx fun e he => ⟨.refl t, hlive, e, rfl, .inl he⟩

theorem absorb_stays (t : Task) (known : List FilePath) (id : EntryId) (tracks : List Track) :
    t.Stays (t.absorb known id tracks) where
  key := rfl
  origin := rfl
  isAlbum := rfl
  grown := by simp [Task.absorb]
  replaces := List.subset_append_left _ _
  chosen := rfl

theorem absorbAll_yields (env : Environment) (known : List FilePath) (t : Task)
    (existing : List CatalogEntry) (hlive : t.state.isFinished = false) :
    Yields (fun t' => t.Stays t' ∧ t'.state = t.state ∧
        t'.replaces = t.replaces ++ existing.map (·.id)) (SetbackOf env t)
      (absorbAll env known t existing) := by
  induction existing generalizing t with
  | nil => exact .of_pure ⟨.refl t, rfl, by simp⟩
  | cons e rest ih =>
    refine (onBehalf_yields hlive (entryTracks_fails e.id)).bind fun tracks _ => ?_
    have habsorb := absorb_stays t known e.id tracks
    refine (ih (t.absorb known e.id tracks) hlive).imp (fun u hu => ?_) fun _ hb => hb.of_stays habsorb
    obtain ⟨hstays, hstate, hreplaces⟩ := hu
    exact ⟨habsorb.trans hstays, hstate, by simp [hreplaces, Task.absorb]⟩

theorem inOrder_stays (t : Task) : t.Stays t.inOrder where
  key := rfl
  origin := rfl
  isAlbum := rfl
  grown := by simp [Task.inOrder]
  replaces := List.Subset.refl _
  chosen := rfl

/-- A task that absorbed entries has been searched for again. -/
theorem merge_yields (env : Environment) (existing : List CatalogEntry)
    (h : t.state = .duplicateCheck) :
    Yields (fun t' => t.Stays t' ∧ t'.state = .searching ∧ ∀ e ∈ existing, e.id ∈ t'.replaces)
      (SetbackOf env t) (merge env t existing) := by
  refine (absorbAll_yields env _ t existing (by rw [h]; rfl)).bind fun u ⟨hu, hstate, hreplaces⟩ => ?_
  have hnext : u.inOrder.clearSelection.state.canBecome .searching = true := by
    rw [Task.clearSelection, Task.inOrder, hstate, h]
    rfl
  refine (search_yields env _ none hnext).imp (fun t' ht' => ?_) fun _ => False.elim
  refine ⟨?_, ht'.state, fun e he => ht'.replaces ?_⟩
  · exact (hu.trans (inOrder_stays u)).trans ((Task.stays_with _ _ _ _).trans ht'.toStays)
  · show e.id ∈ u.replaces
    rw [hreplaces]
    exact List.mem_append_right _ (List.mem_map_of_mem he)

theorem checkDuplicates_yields (env : Environment) (h : t.state = .duplicateCheck)
    (hselected : t.selection.isSome) :
    Yields (DuplicatesOf t) (SetbackOf env t) (checkDuplicates env t) := by
  have proceeds : DuplicatesOf t (.proceed t) := ⟨.refl t, h, hselected⟩
  have hlive : t.state.isFinished = false := by
    rw [h]
    rfl
  have finishes (next : TaskState) (hnext : t.state.canBecome next = true)
      (hend : next = .skipped ∨ next = .aborted) :
      Yields (DuplicatesOf t) (SetbackOf env t) (do return .finished (← advance t next)) := by
    refine (advance_yields t hnext).never.bind fun t' ht' => .of_pure ?_
    subst ht'
    exact ⟨t.stays_with _ _ _, hend⟩
  unfold checkDuplicates
  split
  · exact .of_pure proceeds
  refine (onBehalf_yields hlive (findDuplicates_fails _)).bind fun found _ => ?_
  dsimp only
  split
  · exact .of_pure proceeds
  refine (Yields.of_lift _).bind fun aborted _ => ?_
  split
  · exact finishes .aborted (by rw [h]; rfl) (.inr rfl)
  refine (Yields.of_lift _).bind fun decision _ => ?_
  cases decision with
  | skipNew => exact finishes .skipped (by rw [h]; rfl) (.inl rfl)
  | keepBoth => exact .of_pure proceeds
  | removeOld =>
    exact (onBehalf_yields hlive (removeOld_fails t _)).bind fun _ _ => .of_pure proceeds
  | merge =>
    dsimp only
    split
    · exact (merge_yields env _ h).bind fun t' ht' => .of_pure ⟨ht'.1, ht'.2.1⟩
    · refine .of_pure ⟨⟨⟨rfl, rfl, rfl, Nat.le_refl _, ?_⟩, rfl⟩, h, hselected⟩
      exact List.subset_append_left _ _

/-- A task whose rows are committed goes on at once. -/
theorem checkDuplicates_committed (h : .catalogCommit ∈ env.journal.completedSteps t.key) :
    checkDuplicates env t = return .proceed t := by
  unfold checkDuplicates
  rw [if_pos (by simpa using h)]

theorem findDuplicates_consults (env : Environment) (identity : Identity) :
    Tries Consults (findDuplicates env identity) := (consults_calls env).findDuplicates identity

theorem findDuplicates_ok {identity : Identity} {found : List CatalogEntry}
    (h : s.trying (findDuplicates env identity) = (.ok found, s')) :
    found = s.catalog.findDuplicates identity := by
  obtain ⟨_, u, hattempt, h⟩ := trying_bind_ok.mp h
  rw [← ((attempt_consults env .findDuplicates).result hattempt).catalog]
  obtain ⟨_, v, hget, h⟩ := trying_bind_ok.mp h
  cases hget
  cases h
  rfl

theorem merge_consults (env : Environment) (t : Task) (existing : List CatalogEntry) :
    Tries Consults (merge env t existing) := (consults_searches env).merge t existing

theorem askDuplicate_catalog (env : Environment) (t : Task) (existing : List CatalogEntry) :
    (s.doing (askDuplicate env t existing)).2.catalog = s.catalog := by
  unfold askDuplicate
  simp only [doing_bind, doing_get]
  split
  · rfl
  · rfl

/-- The entries of a catalog that a task does not replace. -/
def unreplaced (c : Catalog) (t : Task) : Nat := c.entries.countP fun id => id ∉ t.replaces

theorem unreplaced_le (c : Catalog) (t : Task) : unreplaced c t ≤ c.albums.length + c.items.length := by
  rw [← c.length_entries]
  exact List.countP_le_length

theorem unreplaced_le_of_subset (c : Catalog) (h : t.replaces ⊆ t'.replaces) :
    unreplaced c t' ≤ unreplaced c t := by
  refine List.countP_mono_left fun id _ hid => ?_
  have hid : id ∉ t'.replaces := of_decide_eq_true hid
  exact decide_eq_true fun hmem => hid (h hmem)

theorem unreplaced_lt {c : Catalog} {id : EntryId} (h : t.replaces ⊆ t'.replaces) (hid : id ∈ c.entries)
    (hnew : id ∉ t.replaces) (hreplaced : id ∈ t'.replaces) : unreplaced c t' < unreplaced c t := by
  unfold unreplaced
  obtain ⟨before, after, hentries⟩ := List.append_of_mem hid
  have hcount (ids : List EntryId) :
      ids.countP (fun id => id ∉ t'.replaces) ≤ ids.countP fun id => id ∉ t.replaces := by
    refine List.countP_mono_left fun x _ hx => ?_
    have hx : x ∉ t'.replaces := of_decide_eq_true hx
    exact decide_eq_true fun hmem => hx (h hmem)
  have hbefore := hcount before
  have hafter := hcount after
  have hone : (if decide (id ∉ t'.replaces) = true then 1 else 0) <
      if decide (id ∉ t.replaces) = true then 1 else 0 := by simp [hnew, hreplaced]
  rw [hentries, List.countP_append, List.countP_append, List.countP_cons, List.countP_cons]
  omega

theorem checkDuplicates_merged (h : t.state = .duplicateCheck)
    (hrun : s.trying (checkDuplicates env t) = (.ok (.merged t'), s')) :
    s'.catalog = s.catalog ∧ unreplaced s.catalog t' < unreplaced s.catalog t := by
  unfold checkDuplicates at hrun
  split at hrun
  · cases hrun
  obtain ⟨found, u, hfind, hrun⟩ := trying_bind_ok.mp hrun
  dsimp only at hrun
  split at hrun
  · cases hrun
  next hsome =>
  obtain ⟨aborted, v, haborted, hrun⟩ := trying_bind_ok.mp hrun
  split at hrun
  · obtain ⟨_, _, -, hrun⟩ := trying_bind_ok.mp hrun
    cases hrun
  obtain ⟨decision, w, hask, hrun⟩ := trying_bind_ok.mp hrun
  have hu := ((findDuplicates_consults env t.identity).adapt _).result hfind
  have hv : v.catalog = s.catalog := (hu.trans (isAborted_consults.lift.result haborted)).catalog
  have hw : w.catalog = s.catalog := by
    rw [← hv, ← askDuplicate_catalog (s := v) env t]
    exact congrArg (fun x => x.2.catalog) hask.symm
  have hfound : found = s.catalog.findDuplicates t.identity := findDuplicates_ok (trying_adapt_ok.mp hfind)
  cases decision with
  | skipNew =>
    obtain ⟨_, _, -, hrun⟩ := trying_bind_ok.mp hrun
    cases hrun
  | keepBoth => cases hrun
  | removeOld =>
    obtain ⟨_, _, -, hrun⟩ := trying_bind_ok.mp hrun
    cases hrun
  | merge =>
    dsimp only at hrun
    split at hrun
    · obtain ⟨u', w', hmerge, hrun⟩ := trying_bind_ok.mp hrun
      cases hrun
      refine ⟨by rw [((merge_consults env t _).result hmerge).catalog, hw], ?_⟩
      obtain ⟨hstays, -, hall⟩ := (merge_yields env _ h).ok hmerge
      -- Of the entries that were found, at least one is new to the task.
      obtain ⟨e, hmem, hnew⟩ : ∃ e, e ∈ found ∧ e.id ∉ t.replaces := by simpa using hsome
      have he := hall e (List.mem_filter.mpr ⟨hmem, by simpa using hnew⟩)
      exact unreplaced_lt hstays.replaces (Catalog.mem_entries_of_duplicate (hfound ▸ hmem)) hnew he
    · cases hrun

end Session
end MusicImport
