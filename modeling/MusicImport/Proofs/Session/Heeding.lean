import MusicImport.Proofs.Session.Departing

/-! Questions and the abort signal. The calls that a session went through tell whether the signal is up:
one of them raised it, or a question was answered with it. No question comes after it. -/
namespace MusicImport

def MatchDecision.aborts : MatchDecision → Bool
  | .abort => true
  | _ => false

namespace Session

variable {s s' u : Session} {env : Environment} {t t' : Task} {new later : List Call}

/-- Whether one of some calls, the last of which comes first, raised the abort signal. -/
def raised (env : Environment) (before : List Call) : List Call → Bool
  | [] => false
  | call :: calls =>
    raised env before calls || env.raises.any (·.isAt call ((calls ++ before).count call + 1))

theorem raised_append (env : Environment) (before calls later : List Call) :
    raised env before (later ++ calls) = (raised env before calls || raised env (calls ++ before) later) := by
  induction later with
  | nil => simp [raised]
  | cons call later ih => simp [raised, ih, Bool.or_assoc]

/-- Whether the abort signal is up some calls after a session. -/
def stopped (env : Environment) (s : Session) (calls : List Call) : Bool :=
  s.aborted || raised env s.calls calls ||
    (s.decisions.take (calls.count .chooseMatch)).any (·.aborts)

theorem stopped_nil (env : Environment) (s : Session) : stopped env s [] = s.aborted := by
  simp [stopped, raised]

/-- The calls between two sessions, none of which is a question after the abort signal. -/
structure HeedsBy (env : Environment) (s : Session) (new : List Call) (s' : Session) : Prop where
  calls : s'.calls = new ++ s.calls
  decisions : s'.decisions = s.decisions.drop (new.count .chooseMatch)
  aborted : stopped env s new = true → s'.aborted = true
  live : ∀ call earlier, call :: earlier <:+ new → call.asks = true → stopped env s earlier = false

def Heeds (env : Environment) (s s' : Session) : Prop := ∃ new, HeedsBy env s new s'

theorem HeedsBy.stopped_append (h : HeedsBy env s new u) (later : List Call) :
    stopped env s (later ++ new) = true → stopped env u later = true := by
  intro hstopped
  have haborted := h.aborted
  unfold stopped at hstopped haborted ⊢
  rw [raised_append, List.count_append, Nat.add_comm, List.take_add, List.any_append] at hstopped
  rw [h.calls, h.decisions]
  simp only [Bool.or_eq_true] at hstopped haborted ⊢
  tauto

theorem HeedsBy.trans (h : HeedsBy env s new u) (h' : HeedsBy env u later s') :
    HeedsBy env s (later ++ new) s' where
  calls := by rw [h'.calls, h.calls, List.append_assoc]
  decisions := by rw [h'.decisions, h.decisions, List.drop_drop, List.count_append, Nat.add_comm]
  aborted hstopped := h'.aborted (h.stopped_append later hstopped)
  live := by
    intro call earlier hsuffix hasks
    -- The question is one of the first calls, or comes after all of them.
    obtain hfirst | ⟨mid, hmid⟩ := List.suffix_or_suffix_of_suffix hsuffix (List.suffix_append later new)
    · exact h.live call earlier hfirst hasks
    cases mid with
    | nil => exact h.live call earlier ⟨[], hmid.symm⟩ hasks
    | cons first mid =>
      obtain ⟨rfl, rfl⟩ := List.cons.inj hmid
      obtain ⟨after, hafter⟩ := hsuffix
      have hafter : (after ++ first :: mid) ++ new = later ++ new := by simpa using hafter
      have hlater : after ++ first :: mid = later := List.append_cancel_right hafter
      have hlive := h'.live first mid ⟨after, hlater⟩ hasks
      by_contra hstopped
      have := h.stopped_append mid (by simpa using hstopped)
      simp [hlive] at this

theorem HeedsBy.refl (s : Session) : HeedsBy env s [] s where
  calls := rfl
  decisions := rfl
  aborted h := by rwa [stopped_nil] at h
  live call earlier h := by cases List.eq_nil_of_suffix_nil h

/-- A call that is no question, or comes before the abort signal. -/
theorem HeedsBy.single {call : Call} (hcalls : s'.calls = call :: s.calls)
    (hdecisions : s'.decisions = s.decisions.drop ([call].count .chooseMatch))
    (haborted : stopped env s [call] = true → s'.aborted = true)
    (hlive : call.asks = true → s.aborted = false) : HeedsBy env s [call] s' where
  calls := hcalls
  decisions := hdecisions
  aborted := haborted
  live := by
    intro call' earlier hsuffix hasks
    obtain hsame | hnone := List.suffix_cons_iff.mp hsuffix
    · obtain ⟨rfl, rfl⟩ := List.cons.inj hsame
      rw [stopped_nil]
      exact hlive hasks
    · cases List.eq_nil_of_suffix_nil hnone

theorem heeds_steady : Steady (Heeds env) where
  refl s := ⟨[], .refl s⟩
  trans := fun ⟨new, h⟩ ⟨later, h'⟩ => ⟨later ++ new, h.trans h'⟩

/-- Once the signal is up there are no more questions. -/
theorem HeedsBy.no_question (h : HeedsBy env s new s') (haborted : s.aborted = true) :
    ∀ call ∈ new, call.asks = false := by
  intro call hcall
  obtain ⟨after, earlier, rfl⟩ := List.append_of_mem hcall
  have hlive := h.live call earlier (List.suffix_append after _)
  by_contra hasks
  have := hlive (by simpa using hasks)
  simp [stopped, haborted] at this

/-- No question was put between two sessions. -/
structure Unasked (env : Environment) (s s' : Session) : Prop where
  calls : ∃ new, s'.calls = new ++ s.calls ∧ (∀ call ∈ new, call.asks = false) ∧
    (s.aborted = true ∨ raised env s.calls new = true → s'.aborted = true)
  decisions : s'.decisions = s.decisions

theorem Unasked.of_same (hcalls : s'.calls = s.calls) (hdecisions : s'.decisions = s.decisions)
    (haborted : s.aborted = true → s'.aborted = true) : Unasked env s s' :=
  ⟨⟨[], hcalls, by simp, by simpa [raised] using haborted⟩, hdecisions⟩

theorem unasked_steady : Steady (Unasked env) where
  refl s := .of_same rfl rfl id
  trans := by
    rintro s u v ⟨⟨new, hcalls, hasks, haborted⟩, hdecisions⟩ ⟨⟨later, hcalls', hasks', haborted'⟩, hdecisions'⟩
    refine ⟨⟨later ++ new, by rw [hcalls', hcalls, List.append_assoc], ?_, ?_⟩,
      hdecisions'.trans hdecisions⟩
    · intro call hcall
      obtain hcall | hcall := List.mem_append.mp hcall
      · exact hasks' call hcall
      · exact hasks call hcall
    · rw [raised_append, ← hcalls, Bool.or_eq_true]
      tauto

theorem Unasked.heeds (h : Unasked env s s') : Heeds env s s' := by
  obtain ⟨⟨new, hcalls, hasks, haborted⟩, hdecisions⟩ := h
  have hcount : new.count .chooseMatch = 0 := by
    apply List.count_eq_zero_of_not_mem
    intro hmem
    cases hasks _ hmem
  refine ⟨new, hcalls, by rw [hcount, hdecisions]; rfl, ?_, ?_⟩
  · intro hstopped
    apply haborted
    simpa [stopped, hcount] using hstopped
  · intro call earlier hsuffix hcall
    have := hasks call (hsuffix.subset (.head _))
    rw [hcall] at this
    cases this

theorem unasked_calls (env : Environment) : Calls env (Unasked env) where
  steady := unasked_steady
  enters call hcall s := by
    refine ⟨⟨[call], rfl, by simpa using hcall, ?_⟩, rfl⟩
    simp [enter, raised]

theorem record_unasked (env : Environment) (e : Event) : Does (Unasked env) (record e) :=
  fun _ => .of_same rfl rfl id

theorem unasked_searches (env : Environment) : Searches env (Unasked env) :=
  ⟨unasked_calls env, fun _ _ => record_unasked env _⟩

theorem look_unasked (env : Environment) (s : Session) : Unasked env s s.look := by
  refine .of_same ?_ ?_ look_aborted
  all_goals
    unfold look
    split <;> rfl

theorem isAborted_unasked (env : Environment) : Does (Unasked env) isAborted := look_unasked env

theorem fail_unasked (env : Environment) (b : Setback) : Does (Unasked env) (fail b) :=
  unasked_steady.does_bind (record_unasked env _) fun _ => unasked_steady.does_pure _

theorem removeOld_unasked (env : Environment) (t : Task) (existing : List CatalogEntry) :
    Tries (Unasked env) (removeOld env t existing) :=
  (unasked_calls env).removeOld (fun _ _ _ => .of_same rfl rfl id) t existing

theorem pick_unasked (env : Environment) (t : Task) (choice : Chosen) : Tries (Unasked env) (pick t choice) :=
  unasked_steady.tries_bind (unasked_steady.advance _ _) fun _ => unasked_steady.tries_pure _

theorem leave_unasked (env : Environment) (t : Task) (state : TaskState) :
    Tries (Unasked env) (leave t state) :=
  unasked_steady.tries_bind (unasked_steady.advance _ _) fun _ => unasked_steady.tries_pure _

/-- An answer other than to abort is followed without another question. -/
theorem follow_unasked (env : Environment) (t : Task) {decision : MatchDecision}
    (h : decision.aborts = false) : Tries (Unasked env) (follow env t decision) := by
  cases decision with
  | applyBest => exact pick_unasked env t _
  | applyCandidate rank =>
    simp only [follow]
    split
    · exact pick_unasked env t _
    · exact unasked_steady.tries_pure _
  | useAsIs => exact pick_unasked env t _
  | asSingletons => exact unasked_steady.tries_pure _
  | manualSearch query =>
    exact unasked_steady.tries_bind ((unasked_searches env).search _ _) fun _ =>
      unasked_steady.tries_bind (unasked_steady.advance _ _) fun _ => unasked_steady.tries_pure _
  | skip => exact leave_unasked env t _
  | abort => cases h

theorem follow_abort (h : t.state = .awaitingDecision) : s.trying (follow env t .abort) =
    (.ok (.settled (.task { t with state := .aborted })), { s with aborted := true }) := by
  have hnext : t.state.canBecome .aborted = true := by
    rw [h]
    rfl
  simp only [follow, leave, advance, transition_of_canBecome hnext]
  rfl

/-- A question is put while the abort signal is down, and uses up an answer. An answer to abort raises
the signal. -/
theorem ask_heeds (hlive : s.aborted = false) (hcalls : s'.calls = (s.doing (ask env t)).2.calls)
    (hdecisions : s'.decisions = s.decisions.drop 1)
    (haborted : (s.doing (ask env t)).2.aborted = true ∨ (s.decisions.take 1).any (·.aborts) = true →
      s'.aborted = true) : Heeds env s s' := by
  refine ⟨[.chooseMatch], .single hcalls hdecisions (fun hstopped => haborted ?_) fun _ => hlive⟩
  simpa [stopped, raised, ask, enter, record] using hstopped

theorem deliberate_heeds (env : Environment) (decisions : List MatchDecision)
    (ht : t.state = .awaitingDecision) (hs : s.decisions = decisions) :
    Heeds env s (s.trying (deliberate env decisions t)).2 := by
  have aborts (t : Task) : Tries (Unasked env) (do return Choice.task (← advance t .aborted)) :=
    unasked_steady.tries_bind (unasked_steady.advance t _) fun _ => unasked_steady.tries_pure _
  -- On the answers: only a manual search or an answer that does not fit leads to another question.
  induction decisions generalizing s t with
  | nil =>
    have hlook := look_unasked env s
    have hdecisions : s.look.decisions = [] := hlook.decisions.trans hs
    unfold deliberate
    rw [trying_bind, trying_liftM, doing_isAborted]
    apply heeds_steady.trans hlook.heeds
    dsimp only
    split
    · exact (aborts t _).heeds
    next hlive =>
    rw [trying_bind, trying_liftM]
    have hask : Heeds env s.look (s.look.doing (ask env t)).2 := by
      refine ask_heeds (Bool.eq_false_iff.mpr hlive) rfl ?_ ?_
      · rw [hdecisions]
        exact hdecisions
      · simp [hdecisions]
    apply heeds_steady.trans hask
    dsimp only
    split
    · exact (unasked_steady.tries_bind (leave_unasked env t _)
        (fun _ => unasked_steady.tries_pure _) _).heeds
    · exact (unasked_steady.tries_bind (pick_unasked env t _)
        (fun _ => unasked_steady.tries_pure _) _).heeds
  | cons decision rest ih =>
    have hlook := look_unasked env s
    have hdecisions : s.look.decisions = decision :: rest := hlook.decisions.trans hs
    unfold deliberate
    rw [trying_bind, trying_liftM, doing_isAborted]
    apply heeds_steady.trans hlook.heeds
    dsimp only
    split
    · exact (aborts t _).heeds
    next hlive =>
    have hlive := Bool.eq_false_iff.mpr hlive
    rw [trying_bind, trying_liftM]
    dsimp only
    rw [trying_bind, trying_modify]
    dsimp only
    cases hanswer : decision.aborts with
    | true =>
      obtain rfl : decision = .abort := by
        cases decision <;> first | rfl | cases hanswer
      rw [trying_bind, follow_abort ht]
      exact ask_heeds (t := t) hlive rfl (by rw [hdecisions]; rfl) fun _ => rfl
    | false =>
      have hask : Heeds env s.look { (s.look.doing (ask env t)).2 with decisions := rest } :=
        ask_heeds (t := t) hlive rfl (by rw [hdecisions]; rfl) (by simp [hdecisions, hanswer])
      apply heeds_steady.trans hask
      rw [trying_bind]
      rcases hfollow : Session.trying _ (follow env t decision) with ⟨b | v, w⟩
      · exact ((follow_unasked env t hanswer).result hfollow).heeds
      have hfollowed := (follow_unasked env t hanswer).result hfollow
      apply heeds_steady.trans hfollowed.heeds
      cases v with
      | settled c => exact heeds_steady.refl _
      | again t' =>
        obtain ⟨-, hstate, -⟩ := (follow_yields env decision ht).ok hfollow
        exact ih hstate hfollowed.decisions

theorem choose_heeds (env : Environment) (t : Task) : Tries (Heeds env) (choose env t) := by
  intro s
  unfold choose
  split
  · exact (unasked_steady.tries_bind (unasked_steady.advance _ _)
      (fun _ => unasked_steady.tries_pure _) s).heeds
  · rw [trying_bind]
    rcases hadvance : s.trying (advance t .awaitingDecision) with ⟨b | u, v⟩
    · exact ((unasked_steady.advance t _).result hadvance).heeds
    · obtain ⟨rfl, rfl⟩ := advance_ok hadvance
      exact deliberate_heeds env _ rfl rfl

theorem carryOut_unasked (env : Environment) (t : Task) (existing : List CatalogEntry)
    (answer : DuplicateDecision) : Tries (Unasked env) (carryOut env t existing answer) := by
  cases answer with
  | skipNew =>
    exact unasked_steady.tries_bind (unasked_steady.advance t _) fun _ => unasked_steady.tries_pure _
  | keepBoth => exact unasked_steady.tries_pure _
  | removeOld =>
    exact unasked_steady.tries_bind ((removeOld_unasked env t existing).adapt _) fun _ =>
      unasked_steady.tries_pure _
  | merge =>
    simp only [carryOut]
    split
    · exact unasked_steady.tries_bind ((unasked_searches env).merge t existing) fun _ =>
        unasked_steady.tries_pure _
    · exact unasked_steady.tries_pure _

theorem askDuplicate_heeds (env : Environment) (hlive : s.aborted = false) (t : Task) (existing : List CatalogEntry) :
    Heeds env s (s.doing (askDuplicate env t existing)).2 := by
  have heeded {s' : Session} (hcalls : s'.calls = .resolveDuplicate :: s.calls)
      (hdecisions : s'.decisions = s.decisions)
      (haborted : stopped env s [.resolveDuplicate] = true → s'.aborted = true) : Heeds env s s' :=
    ⟨[.resolveDuplicate], .single hcalls hdecisions haborted fun _ => hlive⟩
  unfold askDuplicate
  simp only [doing_bind, doing_get]
  split
  · exact heeded rfl rfl (by simp [stopped, raised, enter, record])
  · exact heeded rfl rfl (by simp [stopped, raised, enter, record])

theorem checkDuplicates_heeds (env : Environment) (t : Task) :
    Tries (Heeds env) (checkDuplicates env t) := by
  intro s
  have hfinds := (unasked_calls env).findDuplicates t.identity
  rcases hrun : s.trying (checkDuplicates env t) with ⟨x, s'⟩
  cases checkDuplicates_check hrun with
  | spared => exact heeds_steady.refl s
  | unanswered hfind => exact (hfinds.result hfind).heeds
  | unique hfind => exact (hfinds.result hfind).heeds
  | stopped hfind haborted hadvance =>
    have hadvances : Tries (Unasked env) (do return DuplicateOutcome.finished (← advance t .aborted)) :=
      unasked_steady.tries_bind (unasked_steady.advance t _) fun _ => unasked_steady.tries_pure _
    have hfound := unasked_steady.trans (hfinds.result hfind) (look_unasked env _)
    exact (unasked_steady.trans hfound (hadvances.result hadvance)).heeds
  | asked hfind hrivals hlive hask hcarry =>
    have hfound := unasked_steady.trans (hfinds.result hfind) (look_unasked env _)
    have hasked := askDuplicate_heeds env hlive t (rivals s.catalog t)
    rw [hask] at hasked
    exact heeds_steady.trans (heeds_steady.trans hfound.heeds hasked)
      ((carryOut_unasked env t _ _).result hcarry).heeds

theorem heeds_bears (env : Environment) : Bears env (Heeds env) where
  steady := heeds_steady
  looks s := (look_unasked env s).heeds
  searches t s := ((unasked_searches env).search t none s).heeds
  chooses := choose_heeds env
  checks := checkDuplicates_heeds env
  fails b s := (fail_unasked env b s).heeds

end Session
end MusicImport
