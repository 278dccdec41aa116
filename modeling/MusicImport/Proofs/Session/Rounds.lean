import MusicImport.Proofs.Session.Resolving

/-! A task is settled in rounds. Every round but the last ends in a merge, and the last one tells what
becomes of the task. -/
namespace MusicImport
namespace Session

variable {s s' : Session} {env : Environment} {t t' : Task}

theorem advance_ok {next : TaskState} (h : s.trying (advance t next) = (.ok t', s')) :
    t' = { t with state := next } ∧ s' = s := by
  unfold advance at h
  split at h
  next u hu =>
    cases h
    exact ⟨transition_ok hu, rfl⟩
  · cases h

/-- A search gives a task other candidates and nothing else. -/
theorem search_candidates {query : Option ManualQuery}
    (h : s.trying (search env t query) = (.ok t', s')) :
    ∃ candidates, t' = { t with state := .searching, candidates } := by
  obtain ⟨u, v, hadvance, hrest⟩ := trying_bind_ok.mp h
  obtain ⟨rfl, -⟩ := advance_ok hadvance
  cases query with
  | none =>
    obtain ⟨found, w, -, hpure⟩ := trying_bind_ok.mp hrest
    cases hpure
    exact ⟨_, rfl⟩
  | some q =>
    obtain ⟨found, w, -, hpure⟩ := trying_bind_ok.mp hrest
    cases hpure
    exact ⟨_, rfl⟩

theorem search_ok {query : Option ManualQuery} (h : s.trying (search env t query) = (.ok t', s')) :
    Searched t t' := by
  obtain ⟨candidates, rfl⟩ := search_candidates h
  exact ⟨t.stays_with _ _ _, rfl, rfl⟩

/-- In whatever state a task is, an outcome that is chosen for it is one of those that it may have. -/
theorem choose_from {c : Choice} (h : s.trying (choose env t) = (.ok c, s')) : ChoiceFrom t c := by
  unfold choose at h
  split at h
  · obtain ⟨u, v, hadvance, hpure⟩ := trying_bind_ok.mp h
    cases hpure
    obtain ⟨rfl, -⟩ := advance_ok hadvance
    exact ⟨t.stays_with _ _ _, .inl ⟨rfl, rfl⟩⟩
  · obtain ⟨u, v, hadvance, hask⟩ := trying_bind_ok.mp h
    obtain ⟨_, _, -, hask⟩ := trying_bind_ok.mp hask
    obtain ⟨rfl, -⟩ := advance_ok hadvance
    exact ChoiceFrom.of_stays (t.stays_with .awaitingDecision _ _) rfl ((deliberate_yields env _ rfl).ok hask)

/-- The entries of a catalog that a task duplicates, apart from those that it replaces. -/
def rivals (c : Catalog) (t : Task) : List CatalogEntry :=
  (c.findDuplicates t.identity).filter fun e => !t.replaces.contains e.id

/-- What follows the answer to a question about duplicates. -/
def carryOut (env : Environment) (t : Task) (existing : List CatalogEntry) :
    DuplicateDecision → Attempt Setback DuplicateOutcome
  | .skipNew => return .finished (← advance t .skipped)
  | .keepBoth => return .proceed t
  | .removeOld => do
    onBehalf t (removeOld env t existing)
    return .proceed t
  | .merge =>
    if t.isAlbum then return .merged (← merge env t existing)
    else return .proceed { t with replaces := t.replaces ++ existing.map (·.id) }

/-- What an answer to a question about duplicates brings about. -/
inductive CarriedOut (env : Environment) (t : Task) (existing : List CatalogEntry) (s : Session) :
    DuplicateOutcome → Session → Prop
  | skipped : CarriedOut env t existing s (.finished { t with state := .skipped }) s
  | kept : CarriedOut env t existing s (.proceed t) s
  | removed {s' : Session} (hremove : s.trying (removeOld env t existing) = (.ok (), s')) :
      CarriedOut env t existing s (.proceed t) s'
  | merged {t' : Task} {s' : Session} (hmerge : s.trying (merge env t existing) = (.ok t', s')) :
      CarriedOut env t existing s (.merged t') s'
  | replaced (hsingle : ¬ t.isAlbum = true) :
      CarriedOut env t existing s (.proceed { t with replaces := t.replaces ++ existing.map (·.id) }) s

theorem carryOut_ok {existing : List CatalogEntry} {answer : DuplicateDecision} {o : DuplicateOutcome}
    (h : s.trying (carryOut env t existing answer) = (.ok o, s')) : CarriedOut env t existing s o s' := by
  cases answer with
  | skipNew =>
    obtain ⟨u, v, hadvance, hpure⟩ := trying_bind_ok.mp h
    obtain ⟨rfl, rfl⟩ := advance_ok hadvance
    cases hpure
    exact .skipped
  | keepBoth =>
    cases h
    exact .kept
  | removeOld =>
    obtain ⟨_, v, hremove, hpure⟩ := trying_bind_ok.mp h
    cases hpure
    exact .removed (trying_adapt_ok.mp hremove)
  | merge =>
    simp only [carryOut] at h
    split at h
    · obtain ⟨u, v, hmerge, hpure⟩ := trying_bind_ok.mp h
      cases hpure
      exact .merged hmerge
    next hsingle =>
      cases h
      exact .replaced hsingle

/-- How a check for duplicates goes: without a question, or by following the answer to one. -/
inductive DuplicateCheck (env : Environment) (t : Task) (s : Session) :
    Except Setback DuplicateOutcome → Session → Prop
  | spared : DuplicateCheck env t s (.ok (.proceed t)) s
  | unanswered {e : ServiceFailure} {s' : Session}
      (hfind : s.trying (findDuplicates env t.identity) = (.error e, s')) :
      DuplicateCheck env t s (.error ⟨t, .service e⟩) s'
  | unique {found : List CatalogEntry} {s' : Session}
      (hfind : s.trying (findDuplicates env t.identity) = (.ok found, s')) :
      DuplicateCheck env t s (.ok (.proceed t)) s'
  | stopped {found : List CatalogEntry} {u s' : Session} {x : Except Setback DuplicateOutcome}
      (hfind : s.trying (findDuplicates env t.identity) = (.ok found, u))
      (haborted : u.look.aborted = true)
      (hadvance : u.look.trying (do return .finished (← advance t .aborted)) = (x, s')) :
      DuplicateCheck env t s x s'
  | asked {found : List CatalogEntry} {u v s' : Session} {answer : DuplicateDecision}
      {x : Except Setback DuplicateOutcome}
      (hfind : s.trying (findDuplicates env t.identity) = (.ok found, u))
      (hrivals : rivals s.catalog t ≠ []) (hlive : u.look.aborted = false)
      (hask : u.look.doing (askDuplicate env t (rivals s.catalog t)) = (answer, v))
      (hcarry : v.trying (carryOut env t (rivals s.catalog t) answer) = (x, s')) :
      DuplicateCheck env t s x s'

theorem checkDuplicates_check {x : Except Setback DuplicateOutcome}
    (h : s.trying (checkDuplicates env t) = (x, s')) : DuplicateCheck env t s x s' := by
  unfold checkDuplicates at h
  split at h
  · cases h
    exact .spared
  rw [trying_bind] at h
  rcases hfind : s.trying (findDuplicates env t.identity) with ⟨e | found, u⟩
  · have hrun : s.trying (onBehalf t (findDuplicates env t.identity)) = (.error ⟨t, .service e⟩, u) :=
      trying_adapt_error.mpr ⟨e, hfind, rfl⟩
    rw [hrun] at h
    cases h
    exact .unanswered hfind
  have hrun : s.trying (onBehalf t (findDuplicates env t.identity)) = (.ok found, u) :=
    trying_adapt_ok.mpr hfind
  have hexisting : (found.filter fun e => !t.replaces.contains e.id) = rivals s.catalog t := by
    rw [findDuplicates_ok hfind, rivals]
  rw [hrun] at h
  dsimp only at h
  rw [hexisting] at h
  split at h
  · cases h
    exact .unique hfind
  next hsome =>
  rw [trying_bind, trying_liftM, doing_isAborted] at h
  dsimp only at h
  split at h
  next haborted => exact .stopped hfind haborted h
  next hlive =>
  rw [trying_bind, trying_liftM] at h
  rcases hask : u.look.doing (askDuplicate env t (rivals s.catalog t)) with ⟨answer, v⟩
  rw [hask] at h
  have hrivals : rivals s.catalog t ≠ [] := by simpa using hsome
  refine .asked hfind hrivals (Bool.eq_false_iff.mpr hlive) hask ?_
  cases answer <;> exact h

/-- Rounds that each end in a merge. -/
inductive Rounds (env : Environment) : Task → Session → Task → Session → Prop
  | refl (t : Task) (s : Session) : Rounds env t s t s
  | merge {t u v t' : Task} {s s₁ s₂ s' : Session} (hlook : s.look.aborted = false)
      (hchoose : s.look.trying (choose env t) = (.ok (.task u), s₁))
      (hlive : ¬ u.state.isTerminal = true)
      (hcheck : s₁.trying (checkDuplicates env u) = (.ok (.merged v), s₂))
      (rest : Rounds env v s₂ t' s') : Rounds env t s t' s'

theorem Rounds.stays {t t' : Task} {s s' : Session} (h : Rounds env t s t' s') : t.Stays t' := by
  induction h with
  | refl => exact .refl _
  | merge _ hchoose hlive hcheck _ ih =>
    have hdecided : Decided _ _ := choose_from hchoose
    have hready := hdecided.ready hlive
    have hmerged := (checkDuplicates_yields env hready.state hready.selected).ok hcheck
    exact (hdecided.toStays.trans hmerged.1).trans ih

/-- How a task with an outcome selected leaves the question about duplicates, if not by a merge. -/
inductive Checked (env : Environment) (u : Task) (s : Session) : Except Setback Settlement → Session → Prop
  | failed {b : Setback} {s' : Session} (hcheck : s.trying (checkDuplicates env u) = (.error b, s')) :
      Checked env u s (.error b) s'
  | finished {v : Task} {s' : Session}
      (hcheck : s.trying (checkDuplicates env u) = (.ok (.finished v), s')) :
      Checked env u s (.ok (.resolved ⟨v, none⟩)) s'
  | refused {v : Task} {b : Setback} {s₁ s' : Session}
      (hcheck : s.trying (checkDuplicates env u) = (.ok (.proceed v), s₁))
      (hcommit : s₁.trying (commitTask v) = (.error b, s')) : Checked env u s (.error b) s'
  | committed {v w : Task} {s₁ s' : Session}
      (hcheck : s.trying (checkDuplicates env u) = (.ok (.proceed v), s₁))
      (hcommit : s₁.trying (commitTask v) = (.ok w, s')) :
      Checked env u s (.ok (.resolved ⟨w, none⟩)) s'

/-- The round that ends in something other than a merge. -/
inductive LastRound (env : Environment) (t : Task) (s : Session) :
    Except Setback Settlement → Session → Prop
  | stopped (haborted : s.look.aborted = true) :
      LastRound env t s (.ok (.resolved ⟨t.aborted, none⟩)) s.look
  | undecided {b : Setback} {s' : Session} (hlook : s.look.aborted = false)
      (hchoose : s.look.trying (choose env t) = (.error b, s')) : LastRound env t s (.error b) s'
  | split {children : List Task} {s' : Session} (hlook : s.look.aborted = false)
      (hchoose : s.look.trying (choose env t) = (.ok (.split children), s')) :
      LastRound env t s (.ok (.split children)) s'
  | left {u : Task} {s' : Session} (hlook : s.look.aborted = false)
      (hchoose : s.look.trying (choose env t) = (.ok (.task u), s'))
      (hend : u.state.isTerminal = true) : LastRound env t s (.ok (.resolved ⟨u, none⟩)) s'
  | checked {u : Task} {s₁ s' : Session} {x : Except Setback Settlement}
      (hlook : s.look.aborted = false) (hchoose : s.look.trying (choose env t) = (.ok (.task u), s₁))
      (hlive : ¬ u.state.isTerminal = true) (h : Checked env u s₁ x s') : LastRound env t s x s'

/-- With more fuel than there are entries to absorb, settling a task comes to its last round. -/
theorem round_rounds {fuel : Nat} (hfuel : unreplaced s.catalog t < fuel)
    {x : Except Setback Settlement} (h : s.trying (round env fuel t) = (x, s')) :
    ∃ u v, Rounds env t s u v ∧ LastRound env u v x s' := by
  induction fuel generalizing t s with
  | zero => exact absurd hfuel (Nat.not_lt_zero _)
  | succ fuel ih =>
    unfold round at h
    rw [trying_bind, trying_liftM, doing_isAborted] at h
    dsimp only at h
    split at h
    next haborted =>
      cases h
      exact ⟨t, s, .refl t s, .stopped haborted⟩
    next hlook =>
    have hlook := Bool.eq_false_iff.mpr hlook
    rw [trying_bind] at h
    rcases hchoose : s.look.trying (choose env t) with ⟨b | c, s₁⟩ <;> rw [hchoose] at h
    · cases h
      exact ⟨t, s, .refl t s, .undecided hlook hchoose⟩
    cases c with
    | split children =>
      cases h
      exact ⟨t, s, .refl t s, .split hlook hchoose⟩
    | task u =>
      have hu : Decided t u := choose_from hchoose
      dsimp only at h
      split at h
      next hend =>
        cases h
        exact ⟨t, s, .refl t s, .left hlook hchoose hend⟩
      next hlive =>
        rw [trying_bind] at h
        rcases hcheck : s₁.trying (checkDuplicates env u) with ⟨b | outcome, s₂⟩ <;> rw [hcheck] at h
        · cases h
          exact ⟨t, s, .refl t s, .checked hlook hchoose hlive (.failed hcheck)⟩
        cases outcome with
        | finished v =>
          cases h
          exact ⟨t, s, .refl t s, .checked hlook hchoose hlive (.finished hcheck)⟩
        | proceed v =>
          dsimp only at h
          rw [trying_bind] at h
          rcases hcommit : s₂.trying (commitTask v) with ⟨b | w, s₃⟩ <;> rw [hcommit] at h <;> cases h
          · exact ⟨t, s, .refl t s, .checked hlook hchoose hlive (.refused hcheck hcommit)⟩
          · exact ⟨t, s, .refl t s, .checked hlook hchoose hlive (.committed hcheck hcommit)⟩
        | merged v =>
          -- The task that goes on replaces more of the same catalog.
          obtain ⟨hsame, hless⟩ := checkDuplicates_merged (hu.ready hlive).state hcheck
          have hcatalog : s₁.catalog = s.catalog :=
            ((look_consults s).trans ((choose_consults env t).result hchoose)).catalog
          have hbound := unreplaced_le_of_subset s.catalog hu.replaces
          rw [hcatalog] at hsame hless
          obtain ⟨w, s₃, hrounds, hlast⟩ := ih (by rw [hsame]; omega) h
          exact ⟨w, s₃, .merge hlook hchoose hlive hcheck hrounds, hlast⟩

/-- What settling a task answers after its last round: a setback is told as a failure. -/
def concluded (s : Session) : Except Setback Settlement → Settlement × Session
  | .ok x => (x, s)
  | .error b => (.resolved (s.doing (fail b)).1, (s.doing (fail b)).2)

theorem settle_rounds (env : Environment) (t : Task) (s : Session) :
    ∃ u v x w, Rounds env t s u v ∧ LastRound env u v x w ∧ s.doing (settle env t) = w.concluded x := by
  have hfuel := Nat.lt_succ_of_le (unreplaced_le s.catalog t)
  rcases hr : s.trying (round env (s.catalog.albums.length + s.catalog.items.length + 1) t) with ⟨x, w⟩
  obtain ⟨u, v, hrounds, hlast⟩ := round_rounds hfuel hr
  refine ⟨u, v, x, w, hrounds, hlast, ?_⟩
  unfold settle
  simp only [doing_bind, doing_get, doing_run, hr]
  cases x with
  | ok r => rfl
  | error b => rfl

/-- How settling a task begins: with a search, if that is still to be done and nobody stopped. -/
inductive Begins (env : Environment) (t : Task) (s : Session) : Task → Session → Prop
  | searched {t' : Task} {s' : Session} (hsearch : s.look.trying (search env t none) = (.ok t', s')) :
      Begins env t s t' s'
  | kept (h : t.state ≠ .grouped ∨ s.look.aborted = true) : Begins env t s t s.look

theorem Begins.stays (h : Begins env t s t' s') : t.Stays t' := by
  cases h with
  | searched hsearch => exact (search_ok hsearch).toStays
  | kept _ => exact .refl t

theorem settleFresh_rounds (env : Environment) (t : Task) (s : Session) :
    ∃ t₁ s₁ u v x w, Begins env t s t₁ s₁ ∧ Rounds env t₁ s₁ u v ∧ LastRound env u v x w ∧
      s.doing (settleFresh env t) = w.concluded x := by
  suffices hbegins : ∃ t₁ s₁, Begins env t s t₁ s₁ ∧
      s.doing (settleFresh env t) = s₁.doing (settle env t₁) by
    obtain ⟨t₁, s₁, hbegins, hrun⟩ := hbegins
    obtain ⟨u, v, x, w, hrounds, hlast, hsettle⟩ := settle_rounds env t₁ s₁
    exact ⟨t₁, s₁, u, v, x, w, hbegins, hrounds, hlast, hrun.trans hsettle⟩
  unfold settleFresh
  rw [doing_bind, doing_isAborted]
  dsimp only
  split
  next hgrouped =>
    have hnext : t.state.canBecome .searching = true := by
      rw [(by simpa using hgrouped : t.state = .grouped ∧ _).1]
      rfl
    rcases hr : s.look.trying (search env t none) with ⟨b | u, v⟩
    · exact ((search_yields env t none hnext).error hr).elim
    · exact ⟨u, v, .searched hr, by simp only [doing_bind, doing_run, hr]⟩
  next hkept =>
    refine ⟨t, s.look, .kept ?_, rfl⟩
    simpa [Decidable.imp_iff_not_or] using hkept

/-- A group that is split comes through a choice, in a round that nobody stopped. -/
theorem settleFresh_split {children : List Task} (h : s.doing (settleFresh env t) = (.split children, s')) :
    ∃ t₁ s₁ u v, Begins env t s t₁ s₁ ∧ Rounds env t₁ s₁ u v ∧
      v.look.trying (choose env u) = (.ok (.split children), s') := by
  obtain ⟨t₁, s₁, u, v, x, w, hbegins, hrounds, hlast, hrun⟩ := settleFresh_rounds env t s
  rw [h] at hrun
  cases x with
  | error b => cases (Prod.mk.inj hrun).1
  | ok settlement =>
    obtain ⟨rfl, rfl⟩ := Prod.mk.inj hrun
    cases hlast with
    | split _ hchoose => exact ⟨t₁, s₁, u, v, hbegins, hrounds, hchoose⟩
    | checked _ _ _ hchecked => cases hchecked

/-- What a relation has to say of the steps that settling a task is made of. -/
structure Bears (env : Environment) (R : Session → Session → Prop) : Prop where
  steady : Steady R
  looks : Does R isAborted
  searches : ∀ t, Tries R (search env t none)
  chooses : ∀ t, Tries R (choose env t)
  checks : ∀ t, Tries R (checkDuplicates env t)
  fails : ∀ b, Does R (fail b)

theorem fail_consults (b : Setback) : Does Consults (fail b) :=
  consults_steady.does_bind (record_consults rfl) fun _ => consults_steady.does_pure _

namespace Bears

variable {R : Session → Session → Prop}

/-- Only questions about duplicates and removals do more than ask around. -/
theorem of_consults (hR : Steady R) (hconsults : ∀ {s s'}, Consults s s' → R s s')
    (hask : ∀ t existing, Does R (askDuplicate env t existing))
    (hremove : ∀ t existing, Tries R (removeOld env t existing)) : Bears env R := by
  have does {α : Type} {x : Act α} (h : Does Consults x) : Does R x := fun s => hconsults (h s)
  have tries {ε α : Type} {x : Attempt ε α} (h : Tries Consults x) : Tries R x := fun s => hconsults (h s)
  refine ⟨hR, does isAborted_consults, fun t => tries (search_consults env t none),
    fun t => tries (choose_consults env t), fun t => ?_, fun b => does (fail_consults b)⟩
  have finishes (next : TaskState) : Tries R (do return DuplicateOutcome.finished (← advance t next)) :=
    hR.tries_bind (hR.advance t next) fun _ => hR.tries_pure _
  unfold checkDuplicates
  split
  · exact hR.tries_pure _
  refine hR.tries_bind (tries ((findDuplicates_consults env t.identity).adapt _)) fun found => ?_
  dsimp only
  split
  · exact hR.tries_pure _
  refine hR.tries_bind (does isAborted_consults).lift fun aborted => ?_
  split
  · exact finishes .aborted
  refine hR.tries_bind (hask t _).lift fun answer => ?_
  cases answer with
  | skipNew => exact finishes .skipped
  | keepBoth => exact hR.tries_pure _
  | removeOld => exact hR.tries_bind ((hremove t _).adapt _) fun _ => hR.tries_pure _
  | merge =>
    dsimp only
    split
    · exact hR.tries_bind (tries (merge_consults env t _)) fun _ => hR.tries_pure _
    · exact hR.tries_pure _

theorem commits (h : Bears env R) (t : Task) : Tries R (commitTask t) := by
  refine h.steady.tries_bind h.looks.lift fun aborted => ?_
  split
  · exact h.steady.tries_pure _
  cases t.commitChoice with
  | ok t' => exact h.steady.tries_pure _
  | error refusal => exact h.steady.tries_throw _

theorem rounds (h : Bears env R) (fuel : Nat) (t : Task) : Tries R (round env fuel t) := by
  -- A merge leads to the next round.
  induction fuel generalizing t with
  | zero => exact h.steady.tries_pure _
  | succ fuel ih =>
    unfold round
    refine h.steady.tries_bind h.looks.lift fun aborted => ?_
    split
    · exact h.steady.tries_pure _
    refine h.steady.tries_bind (h.chooses t) fun choice => ?_
    cases choice with
    | split children => exact h.steady.tries_pure _
    | task u =>
      dsimp only
      split
      · exact h.steady.tries_pure _
      refine h.steady.tries_bind (h.checks u) fun outcome => ?_
      cases outcome with
      | finished v => exact h.steady.tries_pure _
      | proceed v => exact h.steady.tries_bind (h.commits v) fun _ => h.steady.tries_pure _
      | merged v => exact ih v

theorem settles (h : Bears env R) (t : Task) : Does R (settle env t) := by
  intro s
  unfold settle
  simp only [doing_bind, doing_get, doing_run]
  have hround := h.rounds (s.catalog.albums.length + s.catalog.items.length + 1) t s
  rcases hr : s.trying (round env (s.catalog.albums.length + s.catalog.items.length + 1) t) with
    ⟨b | r, u⟩ <;> rw [hr] at hround
  · exact h.steady.trans hround (h.fails b u)
  · exact hround

theorem settlesFresh (h : Bears env R) (t : Task) : Does R (settleFresh env t) := by
  unfold settleFresh
  refine h.steady.does_bind h.looks fun aborted => ?_
  split
  · refine h.steady.does_bind (h.searches t).run fun r => ?_
    cases r with
    | ok u => exact h.settles u
    | error b => exact h.steady.does_bind (h.fails b) fun _ => h.steady.does_pure _
  · exact h.settles t

theorem resolvesSingles (h : Bears env R) (children : List Task) :
    Does R (resolveSingles env children) := by
  induction children with
  | nil => exact h.steady.does_pure _
  | cons t rest ih =>
    refine h.steady.does_bind (h.settlesFresh t) fun settlement => ?_
    cases settlement with
    | resolved r => exact h.steady.does_bind ih fun _ => h.steady.does_pure _
    | split parts => exact ih

theorem resolves (h : Bears env R) (t : Task) : Does R (resolve env t) := by
  refine h.steady.does_bind (h.settlesFresh t) fun settlement => ?_
  cases settlement with
  | resolved r => exact h.steady.does_pure _
  | split children => exact h.resolvesSingles children

end Bears

end Session
end MusicImport
