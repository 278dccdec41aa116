import Mathlib.Data.List.Forall2
import MusicImport.Proofs.Session.Merging

/-! A task from its search to its outcome. What comes out of it is the task itself, or its tracks as
tasks of their own, in order. A task whose rows an earlier attempt committed is settled without a
question about duplicates. -/
namespace MusicImport
namespace Session

variable {ε α : Type} {s s' : Session} {env : Environment} {t t' : Task}

theorem aborted_of_live (h : t.state.isFinished = false) :
    t.aborted = { t with state := .aborted } := by
  rw [Task.aborted, transition_of_canBecome (by simp [TaskState.canBecome, h])]
  rfl

/-- With an outcome selected there is nothing to refuse, unless one was made final before. -/
theorem commitTask_yields (env : Environment) (hstate : t.state = .duplicateCheck)
    (hselected : t.selection.isSome) :
    Yields (fun t' => t.Akin t' ∧ (t'.state = .applying ∧ t'.chosen.isSome ∨ t'.state = .aborted))
      (fun b => t.chosen.isSome ∧ SetbackOf env t b) (commitTask t) := by
  obtain ⟨choice, hchoice⟩ := Option.isSome_iff_exists.mp hselected
  refine (Yields.of_lift _).bind fun aborted _ => ?_
  split
  · rw [aborted_of_live (by rw [hstate]; rfl)]
    exact .of_pure ⟨(t.stays_with _ _ _).toAkin, .inr rfl⟩
  unfold Task.commitChoice
  by_cases hchosen : t.chosen.isSome
  · rw [if_pos hchosen]
    refine .of_throw ⟨hchosen, .refl t, ?_, _, rfl, .inr ⟨hchosen, rfl⟩⟩
    rw [hstate]
    rfl
  · have hnext : ({ t with selection := none } : Task).state.canBecome .applying = true := by
      rw [hstate]
      rfl
    rw [if_neg hchosen, hchoice]
    dsimp only
    rw [transition_of_canBecome hnext]
    exact .of_pure ⟨.of_same rfl rfl rfl rfl rfl, .inl ⟨rfl, rfl⟩⟩

/-- A task that is settled without a failure: ready to be applied, or left. -/
structure Settled (t : Task) (r : Resolved) : Prop where
  akin : t.Akin r.task
  failure : r.failure = none
  state : r.task.state = .applying ∧ r.task.chosen.isSome ∨ r.task.state = .skipped ∨
    r.task.state = .aborted

/-- How a task ends up: settled, or failed with a cause. -/
inductive Ended (env : Environment) (t : Task) (r : Resolved) : Prop
  | settled (h : Settled t r)
  | failed {f : ImportFailure} (akin : t.Akin r.task) (state : r.task.state = .failed)
      (failure : r.failure = some f) (cause : Cause env t f)

theorem Ended.akin {r : Resolved} (h : Ended env t r) : t.Akin r.task := by
  cases h with
  | settled h => exact h.akin
  | failed h => exact h

theorem Ended.of_stays (h : t.Stays t') {r : Resolved} (hr : Ended env t' r) : Ended env t r := by
  cases hr with
  | settled hr => exact .settled ⟨h.toAkin.trans hr.akin, hr.failure, hr.state⟩
  | failed hakin hstate hfailure hcause =>
    exact .failed (h.toAkin.trans hakin) hstate hfailure (hcause.congr h.key h.chosen)

/-- What settling makes of a task: the same task, or, for an album, its tracks. -/
def SettledFrom (env : Environment) (t : Task) : Settlement → Prop
  | .resolved r => Ended env t r
  | .split children => t.isAlbum = true ∧ ∃ t', t.Akin t' ∧ children = t'.split

theorem SettledFrom.of_stays (h : t.Stays t') {r : Settlement} (hr : SettledFrom env t' r) :
    SettledFrom env t r := by
  cases r with
  | resolved r => exact Ended.of_stays h hr
  | split children =>
    obtain ⟨halbum, u, hu, rfl⟩ := hr
    exact ⟨h.isAlbum ▸ halbum, u, h.toAkin.trans hu, rfl⟩

theorem aborted_settled (h : t.state.isFinished = false) : Settled t ⟨t.aborted, none⟩ := by
  rw [aborted_of_live h]
  exact ⟨(t.stays_with _ _ _).toAkin, rfl, .inr (.inr rfl)⟩

/-- The outcome of a choice that is not at its end goes on to the duplicates. -/
theorem Decided.ready (h : Decided t t') (hlive : ¬ t'.state.isTerminal = true) : Ready t t' := by
  obtain ⟨hstate, hselected⟩ | h | h := h.state
  · exact ⟨‹Decided t t'›.toStays, hstate, hselected⟩
  · simp [h, TaskState.isTerminal] at hlive
  · simp [h, TaskState.isTerminal] at hlive

theorem Decided.settled (h : Decided t t') (hend : t'.state.isTerminal = true) :
    Settled t ⟨t', none⟩ := by
  obtain ⟨hstate, -⟩ | hlast := h.state
  · simp [hstate, TaskState.isTerminal] at hend
  · exact ⟨h.toAkin, rfl, .inr hlast⟩

/-- A task is settled in as many rounds as there are entries that it could absorb, and one more. -/
theorem round_from {fuel : Nat} (hfuel : unreplaced s.catalog t < fuel) (hstate : t.state = .searching)
    {x : Except Setback Settlement} (h : s.trying (round env fuel t) = (x, s')) :
    match x with
    | .ok r => SettledFrom env t r
    | .error b => SetbackOf env t b := by
  -- On the fuel: a merge leads to the next round, with a task that replaces more of the same catalog.
  induction fuel generalizing t s with
  | zero => exact absurd hfuel (Nat.not_lt_zero _)
  | succ fuel ih =>
    unfold round at h
    rw [trying_bind, trying_liftM, doing_isAborted] at h
    dsimp only at h
    split at h
    · cases h
      exact .settled (aborted_settled (by rw [hstate]; rfl))
    rw [trying_bind] at h
    rcases hchoose : s.look.trying (choose env t) with ⟨b | c, u⟩
    · exact ((choose_yields env hstate).error hchoose).elim
    have hc := (choose_yields env hstate).ok hchoose
    have hcatalog : u.catalog = s.catalog :=
      ((look_consults s).trans ((choose_consults env t).result hchoose)).catalog
    rw [hchoose] at h
    cases c with
    | split children =>
      cases h
      obtain ⟨halbum, v, hv, -, rfl⟩ := hc
      exact ⟨halbum, v, hv, rfl⟩
    | task v =>
      have hv : Decided t v := hc
      dsimp only at h
      split at h
      next hend =>
        cases h
        exact .settled (hv.settled hend)
      next hlive =>
        have hready := hv.ready hlive
        have hspec := checkDuplicates_yields env hready.state hready.selected
        rw [trying_bind] at h
        rcases hcheck : u.trying (checkDuplicates env v) with ⟨b | outcome, w⟩
        · rw [hcheck] at h
          cases h
          exact (hspec.error hcheck).of_stays hv.toStays
        have houtcome := hspec.ok hcheck
        rw [hcheck] at h
        cases outcome with
        | finished v' =>
          cases h
          obtain ⟨hstays, hend⟩ := houtcome
          exact .settled ⟨hv.toAkin.trans hstays.toAkin, rfl, .inr hend⟩
        | proceed v' =>
          have hready' : Ready v v' := houtcome
          have hstays := hv.toStays.trans hready'.toStays
          have hspec := commitTask_yields env hready'.state hready'.selected
          dsimp only at h
          rw [trying_bind] at h
          rcases hcommit : w.trying (commitTask v') with ⟨b | t₁, w'⟩
          · rw [hcommit] at h
            cases h
            exact (hspec.error hcommit).2.of_stays hstays
          · rw [hcommit] at h
            cases h
            obtain ⟨hakin, hend⟩ := hspec.ok hcommit
            exact .settled ⟨hstays.toAkin.trans hakin, rfl, hend.imp_right .inr⟩
        | merged v' =>
          obtain ⟨hstays, hsearching⟩ := houtcome
          obtain ⟨hsame, hless⟩ := checkDuplicates_merged hready.state hcheck
          have hbound := unreplaced_le_of_subset s.catalog hv.replaces
          rw [hcatalog] at hsame hless
          have hnext := ih (s := w) (by rw [hsame]; omega) hsearching h
          have hall := hv.toStays.trans hstays
          cases x with
          | ok r => exact SettledFrom.of_stays hall hnext
          | error b => exact SetbackOf.of_stays hall hnext

/-- A task whose rows are committed is settled in one round. -/
theorem round_committed (env : Environment) (fuel : Nat)
    (hcommitted : .catalogCommit ∈ env.journal.completedSteps t.key)
    (hstate : t.state = .searching) (hchosen : t.chosen = none) :
    Yields (fun | .resolved r => Settled t r | .split _ => True) (fun _ => False)
      (round env (fuel + 1) t) := by
  unfold round
  refine (Yields.of_lift _).bind fun aborted _ => ?_
  split
  · exact .of_pure (aborted_settled (by rw [hstate]; rfl))
  refine (choose_yields env hstate).bind fun c hc => ?_
  cases c with
  | split children => exact .of_pure trivial
  | task u =>
    have hu : Decided t u := hc
    dsimp only
    split
    next hend => exact .of_pure (hu.settled hend)
    next hlive =>
      have hready := hu.ready hlive
      have hnone : u.chosen = none := by rw [hu.chosen, hchosen]
      rw [checkDuplicates_committed (by rwa [hu.key]), pure_bind]
      refine ((commitTask_yields env hready.state hready.selected).imp (fun _ h => h) fun b hb => ?_).bind
        fun v hv => .of_pure ⟨hu.toAkin.trans hv.1, rfl, hv.2.imp_right .inr⟩
      simp [hnone] at hb

theorem commitTask_consults (t : Task) : Tries Consults (commitTask t) := by
  refine consults_steady.tries_bind isAborted_consults.lift fun aborted => ?_
  split
  · exact consults_steady.tries_pure _
  cases t.commitChoice with
  | ok t' => exact consults_steady.tries_pure _
  | error refusal => exact consults_steady.tries_throw _

/-- That round asks around only. -/
theorem round_committed_consults (fuel : Nat)
    (hcommitted : .catalogCommit ∈ env.journal.completedSteps t.key)
    (hstate : t.state = .searching) : Tries Consults (round env (fuel + 1) t) := by
  unfold round
  refine consults_steady.tries_bind isAborted_consults.lift fun aborted => ?_
  split
  · exact consults_steady.tries_pure _
  refine consults_steady.tries_bind_of (choose_consults env t) (choose_yields env hstate)
    fun c hc => ?_
  cases c with
  | split children => exact consults_steady.tries_pure _
  | task u =>
    dsimp only
    split
    · exact consults_steady.tries_pure _
    · rw [checkDuplicates_committed (by rwa [hc.key]), pure_bind]
      exact consults_steady.tries_bind (commitTask_consults u) fun _ =>
        consults_steady.tries_pure _

theorem fail_ended {b : Setback} (h : SetbackOf env t b) : Ended env t (s.doing (fail b)).1 := by
  have hnext : b.task.state.canBecome .failed = true := by simp [TaskState.canBecome, h.live]
  have hfail : (s.doing (fail b)).1 = ⟨{ b.task with state := .failed }, some b.failure⟩ := by
    unfold fail
    rw [transition_of_canBecome hnext]
    rfl
  rw [hfail]
  exact .failed (h.akin.trans (b.task.stays_with _ _ _).toAkin) rfl rfl h.cause

/-- An abort keeps a task from being settled in any other way. -/
theorem settle_aborted (h : s.aborted = true) :
    s.doing (settle env t) = (.resolved ⟨t.aborted, none⟩, s.look) := by
  unfold settle
  simp only [doing_bind, doing_get, doing_run]
  rw [round, trying_bind, trying_liftM, doing_isAborted]
  simp [look_aborted h]

theorem settle_from (h : t.state = .searching) : SettledFrom env t (s.doing (settle env t)).1 := by
  unfold settle
  simp only [doing_bind, doing_get, doing_run]
  have hfuel := Nat.lt_succ_of_le (unreplaced_le s.catalog t)
  rcases hr : s.trying (round env (s.catalog.albums.length + s.catalog.items.length + 1) t) with
    ⟨b | r, u⟩
  · exact fail_ended (s := u) (round_from hfuel h hr)
  · exact round_from hfuel h hr

/-- A task that is still to be searched for, or was searched for. -/
def Waiting (t : Task) : Prop := t.state = .grouped ∨ t.state = .searching

theorem Waiting.live (h : Waiting t) : t.state.isFinished = false := by
  obtain h | h := h <;> rw [h] <;> rfl

/-- A waiting task that has nothing decided. -/
structure Open (t : Task) : Prop where
  state : Waiting t
  chosen : t.chosen = none

theorem Searched.opened (h : Searched t t') (ht : Open t) : Open t' :=
  ⟨.inr h.state, h.chosen.trans ht.chosen⟩

/-- A task is settled after a search, unless an abort came first. -/
theorem settleFresh_settle (env : Environment) (h : Waiting t) : ∃ t' u, Consults s u ∧ t.Stays t' ∧
    Waiting t' ∧ (t'.state = .searching ∨ u.aborted = true) ∧
    s.doing (settleFresh env t) = u.doing (settle env t') := by
  unfold settleFresh
  rw [doing_bind, doing_isAborted]
  by_cases hgrouped : t.state = .grouped ∧ s.look.aborted = false
  · rw [if_pos (by simp [hgrouped])]
    have hnext : t.state.canBecome .searching = true := by
      rw [hgrouped.1]
      rfl
    rcases hr : s.look.trying (search env t none) with ⟨b | u, v⟩
    · exact ((search_yields env t none hnext).error hr).elim
    · have hu := (search_yields env t none hnext).ok hr
      have hv := (look_consults s).trans ((search_consults env t none).result hr)
      refine ⟨u, v, hv, hu.toStays, .inr hu.state, .inl hu.state, ?_⟩
      simp only [doing_bind, doing_run, hr]
  · have hcond : ¬ (decide (t.state = .grouped) && !s.look.aborted) = true := by simpa using hgrouped
    rw [if_neg hcond]
    refine ⟨t, s.look, look_consults s, .refl t, h, ?_, rfl⟩
    obtain hstate | hstate := h
    · exact .inr (by simpa [hstate] using hgrouped)
    · exact .inl hstate

theorem settleFresh_from (env : Environment) (h : Waiting t) :
    SettledFrom env t (s.doing (settleFresh env t)).1 := by
  obtain ⟨t', u, -, hstays, hwaiting, hsearched | haborted, hrun⟩ := settleFresh_settle (s := s) env h
  · rw [hrun]
    exact (settle_from hsearched).of_stays hstays
  · rw [hrun, settle_aborted haborted]
    exact Ended.of_stays hstays (.settled (aborted_settled hwaiting.live))

/-- A task whose rows are committed is settled without a failure, by asking around only. -/
theorem settleFresh_committed (hcommitted : .catalogCommit ∈ env.journal.completedSteps t.key)
    (h : Open t) : Consults s (s.doing (settleFresh env t)).2 ∧
      match (s.doing (settleFresh env t)).1 with
      | .resolved r => Settled t r
      | .split _ => True := by
  obtain ⟨t', u, hu, hstays, hwaiting, hsearched | haborted, hrun⟩ := settleFresh_settle env h.state
  · have hcommitted' : .catalogCommit ∈ env.journal.completedSteps t'.key := by rwa [hstays.key]
    have hchosen : t'.chosen = none := hstays.chosen.trans h.chosen
    rw [hrun]
    unfold settle
    simp only [doing_bind, doing_get, doing_run]
    rcases hr : u.trying (round env (u.catalog.albums.length + u.catalog.items.length + 1) t') with
      ⟨b | r, v⟩
    · exact ((round_committed env _ hcommitted' hsearched hchosen).error hr).elim
    · refine ⟨hu.trans ((round_committed_consults _ hcommitted' hsearched).result hr), ?_⟩
      have hr := (round_committed env _ hcommitted' hsearched hchosen).ok hr
      cases r with
      | resolved r => exact ⟨hstays.toAkin.trans hr.akin, hr.failure, hr.state⟩
      | split children => trivial
  · rw [hrun, settle_aborted haborted]
    have hsettled := aborted_settled hwaiting.live
    exact ⟨hu.trans (look_consults u), hstays.toAkin.trans hsettled.akin, rfl, hsettled.state⟩

/-- What a task is resolved as: itself, or, for an album, its tracks one by one, in order. -/
def ResolvedFrom (env : Environment) (t : Task) (rs : List Resolved) : Prop :=
  (∃ r, rs = [r] ∧ Ended env t r) ∨
    t.isAlbum = true ∧ ∃ t', t.Akin t' ∧ List.Forall₂ (Ended env) t'.split rs

theorem ResolvedFrom.of_stays (h : t.Stays t') {rs : List Resolved} (hrs : ResolvedFrom env t' rs) :
    ResolvedFrom env t rs := by
  obtain ⟨r, rfl, hr⟩ | ⟨halbum, u, hu, hparts⟩ := hrs
  · exact .inl ⟨r, rfl, hr.of_stays h⟩
  · exact .inr ⟨h.isAlbum ▸ halbum, u, h.toAkin.trans hu, hparts⟩

theorem split_open {u : Task} (h : u ∈ t.split) : Open u ∧ u.isAlbum = false := by
  obtain ⟨i, hi, rfl⟩ := List.mem_mapIdx.mp h
  exact ⟨⟨.inl rfl, rfl⟩, rfl⟩

/-- Single tracks are not split again. -/
theorem resolveSingles_parts {children : List Task} (h : ∀ u ∈ children, Open u ∧ u.isAlbum = false) :
    List.Forall₂ (Ended env) children (s.doing (resolveSingles env children)).1 := by
  induction children generalizing s with
  | nil => exact .nil
  | cons u rest ih =>
    obtain ⟨hopen, hsingle⟩ := h u (.head _)
    have hu := settleFresh_from (s := s) env hopen.state
    unfold resolveSingles
    rw [doing_bind]
    rcases hr : s.doing (settleFresh env u) with ⟨r | parts, v⟩ <;> rw [hr] at hu
    · exact .cons hu (ih fun w hw => h w (.tail _ hw))
    · have halbum := hu.1
      simp [hsingle] at halbum

theorem resolve_from (env : Environment) (h : Waiting t) :
    ResolvedFrom env t (s.doing (resolve env t)).1 := by
  have ht := settleFresh_from (s := s) env h
  unfold resolve
  rw [doing_bind]
  rcases hr : s.doing (settleFresh env t) with ⟨r | children, u⟩ <;> rw [hr] at ht
  · exact .inl ⟨r, rfl, ht⟩
  · obtain ⟨halbum, t', hakin, rfl⟩ := ht
    exact .inr ⟨halbum, t', hakin, resolveSingles_parts fun w hw => split_open hw⟩

/-- A task whose rows are committed, and which is not split, asks around only until it is settled. -/
theorem resolve_committed (hcommitted : .catalogCommit ∈ env.journal.completedSteps t.key)
    (h : Open t) (hwhole : ∀ r ∈ (s.doing (resolve env t)).1, r.task.origin = none) :
    Consults s (s.doing (resolve env t)).2 ∧ ∀ r ∈ (s.doing (resolve env t)).1, Settled t r := by
  have ht := settleFresh_from (s := s) env h.state
  obtain ⟨hconsults, howes⟩ := settleFresh_committed (s := s) hcommitted h
  unfold resolve at hwhole ⊢
  rw [doing_bind] at hwhole ⊢
  rcases hr : s.doing (settleFresh env t) with ⟨r | children, u⟩
  · rw [hr] at hconsults howes
    refine ⟨hconsults, fun r' hr' => ?_⟩
    obtain rfl : r' = r := by simpa using hr'
    exact howes
  · rw [hr] at ht hwhole hconsults
    obtain ⟨-, t', -, rfl⟩ := ht
    dsimp only at hwhole ⊢
    have hparts : List.Forall₂ (Ended env) t'.split (u.doing (resolveSingles env t'.split)).1 :=
      resolveSingles_parts fun w hw => split_open hw
    -- The first part would have an origin.
    cases htracks : t'.tracks with
    | nil =>
      have hnone : t'.split = [] := by simp [Task.split, htracks]
      rw [hnone]
      exact ⟨hconsults, by simp [resolveSingles]⟩
    | cons track rest =>
      have hsplit : ∃ u rest, t'.split = u :: rest ∧ u.origin = some ⟨t'.key, 0, t'.tracks.length⟩ := by
        simp [Task.split, htracks]
      obtain ⟨first, later, hsplit, horigin⟩ := hsplit
      rw [hsplit] at hparts
      obtain ⟨r, rs, hr, -, hrs⟩ := List.forall₂_cons_left_iff.mp hparts
      rw [hsplit, hrs] at hwhole
      have hnone := hwhole r (.head _)
      rw [hr.akin.origin, horigin] at hnone
      cases hnone

end Session
end MusicImport
