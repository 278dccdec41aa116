import MusicImport.Proofs.Session.Shrinking

/-! Library files that rows share. A commit keeps the files of rows distinct exactly if no track of it gets
to a file that another row has, and this happens only where a placement does not ask what is claimed. -/
namespace MusicImport

open FilePath Catalog

namespace FileTree

variable {t t' : FileTree} {strategy : FileStrategy} {claimed : List FilePath}
  {pairs : List (FilePath × FilePath)} {xs : List Transfer} {x : Transfer} {p : FilePath}

/-- A file that is placed stays where it is, is copied to a path that led nowhere, or is found where
neither claims nor the files placed before it are. -/
theorem PlacedAll.asks (h : PlacedAll strategy t claimed pairs xs t') {i : Nat} (hx : xs[i]? = some x) :
    x.placement = .inPlace ∨ x.placement = .copied ∧ t.exists? x.dest = false ∨
      ∀ p, p ∈ claimed ∨ p ∈ (xs.take i).map (·.dest) → ¬ p.same x.dest := by
  induction h generalizing i with
  | nil => simp at hx
  | @cons t u t' claimed source dest y rest xs first _ ih =>
    cases i with
    | zero =>
      obtain rfl : y = x := by simpa using hx
      cases first with
      | inPlace => exact .inl rfl
      | reused tried unclaimed =>
        refine .inr (.inr fun p hp hsame => ?_)
        have hp : p ∈ claimed := by simpa using hp
        exact List.any_eq_false.mp unclaimed p hp (same_comm.mp hsame)
      | copied tried absent => exact .inr (.inl ⟨rfl, absent⟩)
    | succ i =>
      obtain hplace | ⟨hcopied, habsent⟩ | hasked := ih (by simpa using hx)
      · exact .inl hplace
      · refine .inr (.inl ⟨hcopied, ?_⟩)
        cases hex : t.exists? x.dest with
        | false => rfl
        | true => exact absurd (exists?_of_extends first.copies.toExtends hex) (by simp [habsent])
      · refine .inr (.inr fun p hp => hasked p ?_)
        rw [List.take_succ_cons, List.map_cons, List.mem_cons] at hp
        rw [List.mem_cons]
        obtain hp | rfl | hp := hp
        · exact .inl (.inr hp)
        · exact .inl (.inl rfl)
        · exact .inr hp

end FileTree

namespace Session

variable {s s' : Session} {env : Environment} {t : Task} {xs : List Transfer} {i : Nat} {x : Transfer}
  {p : FilePath}

/-- The steps that an attempt has behind it in the end. -/
def stepsBehind : Except ApplyFailure Applied → List ApplyStep
  | .ok a => a.completed
  | .error e => e.completed

/-- An attempt puts the rows of a task into the catalog. -/
def Commits (env : Environment) (t : Task) (s : Session) : Prop :=
  .catalogCommit ∉ env.journal.completedSteps t.key ∧
    .catalogCommit ∈ stepsBehind (s.trying (apply env t)).1

theorem retag_steps {choice : Chosen} {previous : List ApplyStep} {e : ApplyFailure}
    (h : s.trying (retag env t choice previous xs) = (.error e, s')) : .catalogCommit ∉ e.completed := by
  unfold retag at h
  split at h
  · obtain ⟨-, -, -, hcompleted⟩ := takeBack_error h
    rw [hcompleted]
    split <;> simp
  · simp at h

theorem placedTracks_paths {records : List Track} (h : xs.length ≤ records.length) :
    (placedTracks records xs).map (·.path) = xs.map (·.dest) := by
  induction xs generalizing records with
  | nil => simp [placedTracks]
  | cons x xs ih =>
    cases records with
    | nil => simp at h
    | cons r records =>
      have hrest := ih (Nat.le_of_succ_le_succ h)
      simpa [placedTracks, Track.relocated] using hrest

theorem finishMove_steps {completed steps : List ApplyStep} {paths : List FilePath}
    (h : s.trying (finishMove env t completed paths) = (.ok steps, s')) : completed ⊆ steps := by
  have hs := finishMove_ok h
  split at hs
  · rw [hs.2.2]
    exact List.subset_append_left _ _
  · rw [hs.2]
    exact List.Subset.refl _

theorem transfer_length {records : List Track} {u : Session}
    (h : s.trying (transfer env t records) = (.ok xs, u)) : xs.length = records.length := by
  obtain ⟨-, -, claimed, hplaced⟩ := transfer_ok h
  have hsources := congrArg List.length hplaced.sources
  simpa [destinations] using hsources

/-- An attempt leaves the catalog as it was, or the rows that it keeps with those of its tracks. -/
theorem apply_catalog (env : Environment) (t : Task) (s : Session) :
    (Commits env t s ∧ (s.trying (apply env t)).2.catalog.paths =
      keptPaths t s.catalog ++ (made env t s).map (·.dest)) ∨
    ¬ Commits env t s ∧ (s.trying (apply env t)).2.catalog = s.catalog := by
  unfold Commits
  rcases h : s.trying (apply env t) with ⟨r, s'⟩
  by_cases hcommitted : .catalogCommit ∈ env.journal.completedSteps t.key
  · exact .inr ⟨fun hc => hc.1 hcommitted, (apply_committed hcommitted h).1.catalog⟩
  rw [apply_first hcommitted] at h
  -- rows are committed after transfers and tags, which leave the catalog alone
  have rows {xs : List Transfer} {u v w : Session} {ids : List EntryId}
      (htransfer : s.trying (transfer env t (t.resolvedTracks (t.chosen.getD .asIs))) = (.ok xs, u))
      (hv : v.catalog = u.catalog)
      (hcommit : v.trying (commitRows env t (t.chosen.getD .asIs)
        (placedTracks (t.resolvedTracks (t.chosen.getD .asIs)) xs)) = (.ok ids, w)) :
      w.catalog.paths = keptPaths t s.catalog ++ (made env t s).map (·.dest) := by
    have hu := (transfer_ok htransfer).1.catalog
    have hlength := Nat.le_of_eq (transfer_length htransfer)
    rw [commitRows_paths hcommit, placedTracks_paths hlength, hv, hu, made_eq htransfer]
  cases r with
  | ok a =>
    obtain ⟨xs, u, v, w, z, htransfer, hretag, hcommit, hmove, hnotify, -⟩ := applyAll_ok h
    refine .inl ⟨⟨hcommitted, finishMove_steps hmove (by decide)⟩, ?_⟩
    rw [hnotify.catalog, finishMove_catalog hmove]
    exact rows htransfer (retag_ok hretag).1.catalog hcommit
  | error e =>
    obtain ⟨htransfer, hsteps⟩ | ⟨xs, u, htransfer, h⟩ := applyAll_error h
    · exact .inr ⟨by simp [stepsBehind, hsteps], (transfer_error htransfer).1.catalog⟩
    have hu := (transfer_ok htransfer).1.catalog
    obtain h | ⟨v, hretag, ⟨f, w, hcommit, rfl, hsteps⟩ | ⟨ids, w, hcommit, hmove⟩⟩ := h
    · obtain ⟨v, -, -, hv, -, rfl, -⟩ := retag_error h
      exact .inr ⟨fun hc => retag_steps h hc.2, hv.catalog.trans hu⟩
    · refine .inr ⟨fun hc => ?_, ?_⟩
      · have hc := hc.2
        rw [stepsBehind, hsteps] at hc
        split at hc <;> simp at hc
      · exact (commitRows_error hcommit).catalog.trans ((retag_ok hretag).1.catalog.trans hu)
    · obtain ⟨-, -, -, hsteps⟩ := finishMove_error hmove
      refine .inl ⟨⟨hcommitted, by simp [stepsBehind, hsteps]⟩, ?_⟩
      rw [finishMove_catalog hmove]
      exact rows htransfer (retag_ok hretag).1.catalog hcommit

/-- The destinations that the tracks of a task are to have. -/
def wanted (env : Environment) (t : Task) : List FilePath :=
  (t.resolvedTracks (t.chosen.getD .asIs)).map (destination env)

/-- A track gets to a file that a row that stays has, or a track before it, and nobody asks whether it is
claimed: the file lies there already, or it is copied to a path that led nowhere before, or the row is not
listed in any directory of the destinations. -/
structure Overlooked (env : Environment) (t : Task) (s : Session) (i : Nat) (x : Transfer)
    (p : FilePath) : Prop where
  made : (made env t s)[i]? = some x
  taken : p ∈ keptPaths t s.catalog ∨ p ∈ ((Session.made env t s).take i).map (·.dest)
  same : p.same x.dest
  unasked : x.placement = .inPlace ∨ x.placement = .copied ∧ s.files.exists? x.dest = false ∨
    p ∈ keptPaths t s.catalog ∧ p ∉ listedPaths s.catalog (wanted env t)

/-- An attempt commits a track with a file of another row. -/
def Overlooks (env : Environment) (t : Task) (s : Session) : Prop :=
  Commits env t s ∧ ∃ i x p, Overlooked env t s i x p

/-- A track that gets to the file of another row was placed without asking for it. -/
theorem overlooked_of_same (hstrategy : env.config.fileStrategy ≠ .reference)
    (hdistinct : s.catalog.PathsDistinct) (hx : (made env t s)[i]? = some x)
    (htaken : p ∈ keptPaths t s.catalog ∨ p ∈ ((made env t s).take i).map (·.dest))
    (hsame : p.same x.dest) : Overlooked env t s i x p := by
  refine ⟨hx, htaken, hsame, ?_⟩
  rcases htransfer : transfersMade env t s with ⟨e | xs, u⟩
  · simp [made, htransfer, Except.toOption] at hx
  have hmade : made env t s = xs := by simp [made, htransfer, Except.toOption]
  obtain ⟨claimed, v, hclaims, hplaced, -⟩ := transfer_claimed htransfer
  have hclaimed := (transferClaims_ok hclaims).resolve_left hstrategy
  rw [hmade] at hx htaken
  obtain hplace | habsent | hasked := hplaced.asks hx
  · exact .inl hplace
  · exact .inr (.inl habsent)
  obtain hkept | hbefore := htaken
  · refine .inr (.inr ⟨hkept, fun hlisted => hasked p (.inl ?_) hsame⟩)
    rw [hclaimed]
    exact List.mem_filter.mpr ⟨hlisted, by rw [not_freed_of_kept hdistinct hkept, Bool.not_false]⟩
  · exact absurd hsame (hasked p (.inr hbefore))

/-- An attempt keeps the files of rows distinct exactly if it overlooks none. -/
theorem apply_distinct_iff (hstrategy : env.config.fileStrategy ≠ .reference)
    (hdistinct : s.catalog.PathsDistinct) :
    (s.trying (apply env t)).2.catalog.PathsDistinct ↔ ¬ Overlooks env t s := by
  obtain ⟨hcommits, hpaths⟩ | ⟨hnot, hcatalog⟩ := apply_catalog env t s
  · unfold PathsDistinct Overlooks
    rw [hpaths, List.pairwise_append]
    constructor
    · rintro ⟨-, hdests, hcross⟩ ⟨-, i, x, p, hoverlooked⟩
      obtain ⟨hi, hx⟩ := List.getElem?_eq_some_iff.mp hoverlooked.made
      have hmem : x.dest ∈ (made env t s).map (·.dest) := hx ▸ List.mem_map_of_mem (List.getElem_mem hi)
      obtain hkept | hbefore := hoverlooked.taken
      · exact hcross p hkept x.dest hmem hoverlooked.same
      · obtain ⟨y, hy, rfl⟩ := List.mem_map.mp hbefore
        obtain ⟨j, hj, hyj⟩ := List.mem_take_iff_getElem.mp hy
        have hpairs := List.pairwise_iff_getElem.mp (List.pairwise_map.mp hdests)
        have hpair := hpairs j i (by omega) hi (by omega)
        rw [hx, hyj] at hpair
        exact hpair hoverlooked.same
    · intro hnone
      have hfree {i : Nat} {x : Transfer} {p : FilePath} (hx : (made env t s)[i]? = some x)
          (htaken : p ∈ keptPaths t s.catalog ∨ p ∈ ((made env t s).take i).map (·.dest)) :
          ¬ p.same x.dest := fun hsame =>
        hnone ⟨hcommits, i, x, p, overlooked_of_same hstrategy hdistinct hx htaken hsame⟩
      refine ⟨?_, ?_, fun p hp q hq => ?_⟩
      · exact List.Pairwise.sublist (kept_sublist t s.catalog) hdistinct
      · rw [List.pairwise_map, List.pairwise_iff_getElem]
        intro j i hj hi hji
        refine hfree (List.getElem?_eq_getElem hi) (.inr (List.mem_map_of_mem ?_))
        exact List.mem_take_iff_getElem.mpr ⟨j, by omega, rfl⟩
      · obtain ⟨x, hx, rfl⟩ := List.mem_map.mp hq
        obtain ⟨i, hi⟩ := List.mem_iff_getElem?.mp hx
        exact hfree hi (.inl hp)
  · rw [hcatalog]
    exact ⟨fun _ hoverlooks => hnot hoverlooks.1, fun _ => hdistinct⟩

/-- What happens to a catalog: a task is resolved or applied, or something else happens that leaves the
catalog alone, such as new files to import, or other answers. -/
inductive Deed
  | resolve (env : Environment) (t : Task)
  | apply (env : Environment) (t : Task)
  | elsewhere (next : Session)

def Deed.run (s : Session) : Deed → Session
  | .resolve env t => (s.doing (Session.resolve env t)).2
  | .apply env t => (s.trying (Session.apply env t)).2
  | .elsewhere next => { next with catalog := s.catalog }

/-- A deed that brings files into the library. -/
def Deed.Transfers : Deed → Prop
  | .apply env _ => env.config.fileStrategy ≠ .reference
  | _ => True

/-- A deed that commits a track with a file of another row. -/
def Deed.Overlooks (s : Session) : Deed → Prop
  | .apply env t => Session.Overlooks env t s
  | _ => False

def afterAll (s : Session) (deeds : List Deed) : Session := deeds.foldl Deed.run s

theorem Deed.distinct_iff {d : Deed} (htransfers : d.Transfers) (hdistinct : s.catalog.PathsDistinct) :
    (d.run s).catalog.PathsDistinct ↔ ¬ d.Overlooks s := by
  cases d with
  | resolve env t =>
    have hresolved := hdistinct.sublist (resolve_shrinks env t s)
    exact ⟨fun _ => not_false, fun _ => hresolved⟩
  | apply env t => exact apply_distinct_iff htransfers hdistinct
  | elsewhere next => exact ⟨fun _ => not_false, fun _ => hdistinct⟩

/-- From a catalog whose rows have distinct files, rows have distinct files after every deed exactly if
none of the deeds overlooks one. -/
theorem distinct_iff_none_overlooks {deeds : List Deed} (htransfers : ∀ d ∈ deeds, d.Transfers)
    (hdistinct : s.catalog.PathsDistinct) :
    (∀ n, (afterAll s (deeds.take n)).catalog.PathsDistinct) ↔
      ∀ (n : Nat) (d : Deed), deeds[n]? = some d → ¬ d.Overlooks (afterAll s (deeds.take n)) := by
  induction deeds generalizing s with
  | nil => simp [afterAll, hdistinct]
  | cons d deeds ih =>
    have hrest : ∀ e ∈ deeds, e.Transfers := fun e he => htransfers e (.tail _ he)
    have hfirst := Deed.distinct_iff (htransfers d (.head _)) hdistinct
    constructor
    · intro hall
      have hd : (d.run s).catalog.PathsDistinct := by simpa [afterAll] using hall 1
      have htail := (ih hrest hd).mp fun n => by simpa [afterAll] using hall (n + 1)
      intro n e he
      cases n with
      | zero =>
        obtain rfl : d = e := by simpa using he
        simpa [afterAll] using hfirst.mp hd
      | succ n => simpa [afterAll] using htail n e (by simpa using he)
    · intro hnone
      have hd : (d.run s).catalog.PathsDistinct := hfirst.mpr (by simpa [afterAll] using hnone 0 d rfl)
      have htail := (ih hrest hd).mpr fun n e he => by
        simpa [afterAll] using hnone (n + 1) e (by simpa using he)
      intro n
      cases n with
      | zero => simpa [afterAll] using hdistinct
      | succ n => simpa [afterAll] using htail n

/-- Two tracks with one title in the library, where the second has the name that both are to get. -/
def twinTask : Task :=
  { key := "lib", isAlbum := true, state := .grouped
    tracks := [{ path := ⟨"lib/0.flac"⟩, title := some "A", album := some "X" },
      { path := ⟨"lib/A.flac"⟩, title := some "A", album := some "X" }] }

def twinSession : Session :=
  { files := { nodes := [(["lib"], .directory), (["lib", "0.flac"], .file "one".toUTF8),
      (["lib", "A.flac"], .file "one".toUTF8)] }
    decisions := [.useAsIs] }

/-- The task as it is settled. -/
def twinSettled : Task :=
  (((twinSession.doing (resolve (titleLibrary .copy) twinTask)).1.head?).map (·.task)).getD twinTask

def twinDeeds : List Deed :=
  [.resolve (titleLibrary .copy) twinTask, .apply (titleLibrary .copy) twinSettled]

theorem twin_shared : ¬ (afterAll twinSession twinDeeds).catalog.PathsDistinct := by decide +kernel

theorem twin_distinct : twinSession.catalog.PathsDistinct := by decide

theorem distinct_iff_none_overlooks_twin :
    ∃ (n : Nat) (d : Deed), twinDeeds[n]? = some d ∧
      d.Overlooks (afterAll twinSession (twinDeeds.take n)) := by
  have htransfers : ∀ d ∈ twinDeeds, d.Transfers := by
    intro d hd
    obtain rfl | rfl : d = _ ∨ d = _ := by simpa [twinDeeds] using hd
    · trivial
    · exact (by decide : FileStrategy.copy ≠ .reference)
  by_contra hnone
  have hall := (distinct_iff_none_overlooks htransfers twin_distinct).mpr fun n d hd hoverlooks =>
    hnone ⟨n, d, hd, hoverlooks⟩
  exact twin_shared (hall 2)

/-- A task that was settled can end up with two rows for one file. -/
theorem settled_rows_not_distinct :
    ¬ ∀ (env : Environment) (t : Task) (s : Session), env.config.fileStrategy ≠ .reference →
      s.catalog.PathsDistinct → ∀ r ∈ (s.doing (resolve env t)).1, r.task.state = .applying →
        (afterAll s [.resolve env t, .apply env r.task]).catalog.PathsDistinct := by
  intro h
  have hsettled : (twinSession.doing (resolve (titleLibrary .copy) twinTask)).1.head?.any fun r =>
      r.task.state = .applying := by decide +kernel
  obtain ⟨r, hr, hstate⟩ := (Option.any_eq_true _ _).mp hsettled
  have htask : twinSettled = r.task := by simp [twinSettled, hr]
  have hdistinct := h (titleLibrary .copy) twinTask twinSession (by decide) twin_distinct r
    (List.mem_of_head? hr) (of_decide_eq_true hstate)
  rw [← htask] at hdistinct
  exact twin_shared hdistinct

end Session
end MusicImport
