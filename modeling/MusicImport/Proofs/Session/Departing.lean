import MusicImport.Proofs.Session.Rounds

/-! The tasks that leave settling, each with the sessions before and after it was settled. A group leaves
as it is, or as the tracks it was split into, one after the other. -/
namespace MusicImport
namespace Session

variable {s s' : Session} {env : Environment} {t t' : Task}

/-- A task that was settled by itself. -/
structure Departure where
  task : Task
  before : Session
  result : Resolved
  after : Session

def departuresOf (env : Environment) : List Task → Session → List Departure
  | [], _ => []
  | t :: rest, s =>
    match s.doing (settleFresh env t) with
    | (.resolved r, u) => ⟨t, s, r, u⟩ :: departuresOf env rest u
    | (.split _, u) => departuresOf env rest u

def departures (env : Environment) (t : Task) (s : Session) : List Departure :=
  match s.doing (settleFresh env t) with
  | (.resolved r, u) => [⟨t, s, r, u⟩]
  | (.split children, u) => departuresOf env children u

theorem departuresOf_results (env : Environment) (children : List Task) (s : Session) :
    (departuresOf env children s).map (·.result) = (s.doing (resolveSingles env children)).1 := by
  induction children generalizing s with
  | nil => rfl
  | cons t rest ih =>
    unfold departuresOf resolveSingles
    rw [doing_bind]
    rcases s.doing (settleFresh env t) with ⟨r | parts, u⟩
    · simp [ih]
    · exact ih u

/-- They are all that comes out, in order. -/
theorem departures_results (env : Environment) (t : Task) (s : Session) :
    (departures env t s).map (·.result) = (s.doing (resolve env t)).1 := by
  unfold departures resolve
  rw [doing_bind]
  rcases s.doing (settleFresh env t) with ⟨r | children, u⟩
  · rfl
  · exact departuresOf_results env children u

variable {d : Departure}

theorem settled_of_mem_departuresOf {children : List Task} (h : d ∈ departuresOf env children s) :
    d.before.doing (settleFresh env d.task) = (.resolved d.result, d.after) := by
  induction children generalizing s with
  | nil => cases h
  | cons t rest ih =>
    unfold departuresOf at h
    rcases hr : s.doing (settleFresh env t) with ⟨r | parts, u⟩ <;> rw [hr] at h
    · obtain rfl | h := List.mem_cons.mp h
      · exact hr
      · exact ih h
    · exact ih h

theorem settled_of_mem_departures (h : d ∈ departures env t s) :
    d.before.doing (settleFresh env d.task) = (.resolved d.result, d.after) := by
  unfold departures at h
  rcases hr : s.doing (settleFresh env t) with ⟨r | children, u⟩ <;> rw [hr] at h
  · obtain rfl := List.mem_singleton.mp h
    exact hr
  · exact settled_of_mem_departuresOf h

theorem task_of_mem_departuresOf {children : List Task} (hd : d ∈ departuresOf env children s) :
    d.task ∈ children := by
  induction children generalizing s with
  | nil => cases hd
  | cons first rest ih =>
    unfold departuresOf at hd
    rcases hr : s.doing (settleFresh env first) with ⟨r | parts, u⟩ <;> rw [hr] at hd
    · obtain rfl | hd := List.mem_cons.mp hd
      · exact .head _
      · exact .tail _ (ih hd)
    · exact .tail _ (ih hd)

/-- The parts of a split group have not been searched for. -/
theorem settleFresh_split_grouped {children : List Task} {u : Session}
    (h : s.doing (settleFresh env t) = (.split children, u)) : ∀ part ∈ children, part.state = .grouped := by
  obtain ⟨_, _, _, _, -, -, hchoose⟩ := settleFresh_split h
  obtain ⟨-, whole, -, -, rfl⟩ := choose_from hchoose
  intro part hpart
  obtain ⟨i, -, rfl⟩ := List.mem_mapIdx.mp hpart
  rfl

/-- A task is settled as it comes, or is a part that was not searched for. -/
theorem departure_task (hd : d ∈ departures env t s) :
    d.task = t ∧ d.before = s ∨ d.task.state = .grouped := by
  unfold departures at hd
  rcases hr : s.doing (settleFresh env t) with ⟨r | children, u⟩ <;> rw [hr] at hd
  · obtain rfl := List.mem_singleton.mp hd
    exact .inl ⟨rfl, rfl⟩
  · exact .inr (settleFresh_split_grouped hr _ (task_of_mem_departuresOf hd))

section

variable {R : Session → Session → Prop} (h : Bears env R)

include h

theorem Bears.beforeSingle {children : List Task} (hd : d ∈ departuresOf env children s) : R s d.before := by
  induction children generalizing s with
  | nil => cases hd
  | cons t rest ih =>
    have hfirst := h.settlesFresh t s
    unfold departuresOf at hd
    rcases hr : s.doing (settleFresh env t) with ⟨r | parts, u⟩ <;> rw [hr] at hd hfirst
    · obtain rfl | hd := List.mem_cons.mp hd
      · exact h.steady.refl s
      · exact h.steady.trans hfirst (ih hd)
    · exact h.steady.trans hfirst (ih hd)

theorem Bears.before (hd : d ∈ departures env t s) : R s d.before := by
  have hfirst := h.settlesFresh t s
  unfold departures at hd
  rcases hr : s.doing (settleFresh env t) with ⟨r | children, u⟩ <;> rw [hr] at hd hfirst
  · obtain rfl := List.mem_singleton.mp hd
    exact h.steady.refl s
  · exact h.steady.trans hfirst (h.beforeSingle hd)

theorem Bears.departs (hd : d ∈ departures env t s) : R d.before d.after :=
  (h.settlesFresh d.task).result (settled_of_mem_departures hd)

end

theorem mark_ne_applying (t : Task) {next : TaskState} (hnext : next = .aborted ∨ next = .failed) :
    ((t.transition next).toOption.getD t).state ≠ .applying := by
  by_cases hlive : t.state.isFinished = true
  · have hrefused : t.state.canBecome next = false := by simp [TaskState.canBecome, hnext, hlive]
    have hkept : (t.transition next).toOption.getD t = t := by simp [Task.transition, hrefused]; rfl
    intro happlying
    rw [hkept] at happlying
    rw [happlying] at hlive
    cases hlive
  · have hmarked : t.state.canBecome next = true := by simpa [TaskState.canBecome, hnext] using hlive
    rw [transition_of_canBecome hmarked]
    intro happlying
    obtain rfl | rfl := hnext <;> cases happlying

theorem fail_ne_applying (b : Setback) : (s.doing (fail b)).1.task.state ≠ .applying :=
  mark_ne_applying b.task (.inr rfl)

/-- An outcome is made final only after a look at the abort signal. -/
theorem commitTask_ok (h : s.trying (commitTask t) = (.ok t', s')) : s' = s.look ∧
    (s'.aborted = true ∧ t' = t.aborted ∨ s'.aborted = false ∧ t.chosen = none ∧
      ∃ choice, t.selection = some choice ∧
        t' = { t with selection := none, state := .applying, chosen := some choice }) := by
  unfold commitTask at h
  rw [trying_bind, trying_liftM, doing_isAborted] at h
  dsimp only at h
  split at h
  next haborted =>
    cases h
    exact ⟨rfl, .inl ⟨haborted, rfl⟩⟩
  next hlive =>
  cases hcommit : t.commitChoice with
  | error refusal =>
    rw [hcommit] at h
    cases h
  | ok w =>
    rw [hcommit] at h
    cases h
    refine ⟨rfl, .inr ⟨by simpa using hlive, ?_⟩⟩
    unfold Task.commitChoice at hcommit
    split at hcommit
    · cases hcommit
    next hchosen =>
    refine ⟨by simpa using hchosen, ?_⟩
    split at hcommit
    · cases hcommit
    next choice hchoice =>
    dsimp only at hcommit
    split at hcommit
    next u hu =>
      cases hcommit
      rw [transition_ok hu]
      exact ⟨choice, hchoice, rfl⟩
    · cases hcommit

/-- How a task came to be applied: what its last round chose, and what the question about duplicates
made of it. -/
structure Approval (env : Environment) (d : Departure) (u : Task) (v : Session) (u' : Task) (v' : Session)
    (w : Task) (w' : Session) (choice : Chosen) : Prop where
  rounds : ∃ t₁ s₁, Begins env d.task d.before t₁ s₁ ∧ Rounds env t₁ s₁ u v
  unstopped : v.look.aborted = false
  chose : v.look.trying (choose env u) = (.ok (.task u'), v')
  selected : Ready u u'
  checked : v'.trying (checkDuplicates env u') = (.ok (.proceed w), w')
  after : d.after = w'.look
  live : d.after.aborted = false
  selection : w.selection = some choice
  result : d.result.task = { w with selection := none, state := .applying, chosen := some choice }

theorem exists_approval (hd : d ∈ departures env t s) (h : d.result.task.state = .applying) :
    ∃ u v u' v' w w' choice, Approval env d u v u' v' w w' choice := by
  obtain ⟨t₁, s₁, u, v, x, w, hbegins, hrounds, hlast, hrun⟩ :=
    settleFresh_rounds env d.task d.before
  rw [settled_of_mem_departures hd] at hrun
  -- A failure, an abort, and an answer that leaves the task all end in another state.
  cases x with
  | error b =>
    obtain ⟨hresult, -⟩ := Prod.mk.inj hrun
    rw [Settlement.resolved.inj hresult] at h
    exact absurd h (fail_ne_applying b)
  | ok settlement =>
    obtain ⟨hresult, hafter⟩ := Prod.mk.inj hrun
    cases hlast with
    | stopped haborted =>
      rw [Settlement.resolved.inj hresult] at h
      exact absurd h (mark_ne_applying u (.inl rfl))
    | split _ hchoose => cases hresult
    | left _ hchoose hend =>
      rw [Settlement.resolved.inj hresult] at h
      rw [h] at hend
      cases hend
    | @checked u' v' _ _ hunstopped hchoose hlive hchecked =>
      have hdecided : Decided u u' := choose_from hchoose
      have hready := hdecided.ready hlive
      cases hchecked with
      | finished hcheck =>
        rw [Settlement.resolved.inj hresult] at h
        obtain ⟨-, hend⟩ := (checkDuplicates_yields env hready.state hready.selected).ok hcheck
        obtain hend | hend := hend <;> rw [hend] at h <;> cases h
      | @committed w₁ w₂ w' _ hcheck hcommit =>
        obtain ⟨hlook, hend⟩ := commitTask_ok hcommit
        rw [Settlement.resolved.inj hresult] at h
        obtain ⟨-, rfl⟩ | ⟨hlive', -, choice, hchoice, rfl⟩ := hend
        · exact absurd h (mark_ne_applying w₁ (.inl rfl))
        · exact ⟨u, v, u', v', w₁, w', choice, ⟨t₁, s₁, hbegins, hrounds⟩, hunstopped, hchoose, hready,
            hcheck, hafter.trans hlook, by rw [hafter, hlive'], hchoice, by rw [Settlement.resolved.inj hresult]⟩

end Session
end MusicImport
