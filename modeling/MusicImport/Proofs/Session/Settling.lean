import MusicImport.Proofs.Session.Consulting

/-! Settling a task. Whatever is answered, a task stays the one it is: its key, where it comes from, and
whether it is an album do not change. Choosing an outcome never fails, and asks sources and people
only. -/
namespace MusicImport

/-- The same group of tracks, whatever became of it. Tracks and entries that it replaces may come, and
none go. -/
structure Task.Akin (t t' : Task) : Prop where
  key : t'.key = t.key
  origin : t'.origin = t.origin
  isAlbum : t'.isAlbum = t.isAlbum
  grown : t.tracks.length ≤ t'.tracks.length
  replaces : t.replaces ⊆ t'.replaces

/-- The same group, and no outcome was made final. -/
structure Task.Stays (t t' : Task) : Prop extends t.Akin t' where
  chosen : t'.chosen = t.chosen

namespace Task

variable {t u t' : Task}

theorem Akin.of_same (hkey : t'.key = t.key) (horigin : t'.origin = t.origin)
    (halbum : t'.isAlbum = t.isAlbum) (htracks : t'.tracks = t.tracks)
    (hreplaces : t'.replaces = t.replaces) : t.Akin t' :=
  ⟨hkey, horigin, halbum, htracks ▸ Nat.le_refl _, hreplaces ▸ List.Subset.refl _⟩

theorem Akin.refl (t : Task) : t.Akin t := .of_same rfl rfl rfl rfl rfl

theorem Akin.trans (h : t.Akin u) (h' : u.Akin t') : t.Akin t' where
  key := h'.key.trans h.key
  origin := h'.origin.trans h.origin
  isAlbum := h'.isAlbum.trans h.isAlbum
  grown := Nat.le_trans h.grown h'.grown
  replaces := List.Subset.trans h.replaces h'.replaces

theorem Stays.refl (t : Task) : t.Stays t := ⟨.refl t, rfl⟩

theorem Stays.trans (h : t.Stays u) (h' : u.Stays t') : t.Stays t' :=
  ⟨h.toAkin.trans h'.toAkin, h'.chosen.trans h.chosen⟩

/-- A task is as open with another selection, in another state, or with other candidates. -/
theorem stays_with (t : Task) (state : TaskState) (candidates : List (Match Float))
    (selection : Option Chosen) :
    t.Stays { t with state := state, candidates := candidates, selection := selection } :=
  ⟨.of_same rfl rfl rfl rfl rfl, rfl⟩

end Task

namespace Session

variable {s s' : Session} {env : Environment} {t t' : Task}

theorem transition_ok {next : TaskState} (h : t.transition next = .ok t') :
    t' = { t with state := next } := by
  unfold Task.transition at h
  split at h
  · exact (Except.ok.inj h).symm
  · cases h

theorem transition_of_canBecome {next : TaskState} (h : t.state.canBecome next = true) :
    t.transition next = .ok { t with state := next } := by
  simp [Task.transition, h]

/-- Marked with a state or left as it is, a task is the same. -/
theorem akin_transition (t : Task) (next : TaskState) :
    t.Akin ((t.transition next).toOption.getD t) := by
  cases h : t.transition next with
  | error e => exact .refl t
  | ok t' =>
    rw [transition_ok h]
    exact .of_same rfl rfl rfl rfl rfl

theorem advance_yields (t : Task) {next : TaskState} (h : t.state.canBecome next = true) :
    Yields (fun t' => t' = { t with state := next }) (fun _ => False) (advance t next) := by
  unfold advance
  rw [transition_of_canBecome h]
  exact .of_pure rfl

/-- What a search leaves of a task. -/
structure Searched (t t' : Task) : Prop extends t.Stays t' where
  state : t'.state = .searching
  tracks : t'.tracks = t.tracks

theorem search_yields (env : Environment) (t : Task) (query : Option ManualQuery)
    (h : t.state.canBecome .searching = true) :
    Yields (Searched t) (fun _ => False) (search env t query) := by
  refine (advance_yields t h).bind fun t' ht' => ?_
  subst ht'
  cases query with
  | none => exact (Yields.of_lift _).bind fun _ _ => .of_pure ⟨t.stays_with _ _ _, rfl, rfl⟩
  | some q => exact (Yields.of_lift _).bind fun _ _ => .of_pure ⟨t.stays_with _ _ _, rfl, rfl⟩

/-- A task that has an outcome selected, or is at its end. -/
structure Decided (t t' : Task) : Prop extends t.Stays t' where
  state : t'.state = .duplicateCheck ∧ t'.selection.isSome ∨ t'.state = .skipped ∨
    t'.state = .aborted

/-- What a choice may be: the task with its outcome decided, or, for an album, its tracks. -/
def ChoiceFrom (t : Task) : Choice → Prop
  | .task t' => Decided t t'
  | .split children => t.isAlbum = true ∧ ∃ t', t.Akin t' ∧ t'.tracks = t.tracks ∧
      children = t'.split

/-- A verdict settles the choice, or leaves the task waiting for another answer. -/
def VerdictFrom (t : Task) : Verdict → Prop
  | .settled c => ChoiceFrom t c
  | .again t' => t.Stays t' ∧ t'.state = .awaitingDecision ∧ t'.tracks = t.tracks

/-- A verdict with the outcome decided. -/
def Settles (t : Task) (v : Verdict) : Prop := ∃ t', v = .settled (.task t') ∧ Decided t t'

theorem Settles.verdictFrom {v : Verdict} (h : Settles t v) : VerdictFrom t v := by
  obtain ⟨t', rfl, ht'⟩ := h
  exact ht'

theorem Settles.choiceFrom {v : Verdict} (h : Settles t v) : ChoiceFrom t v.choice := by
  obtain ⟨t', rfl, ht'⟩ := h
  exact ht'

theorem pick_yields (choice : Chosen) (h : t.state = .awaitingDecision) :
    Yields (Settles t) (fun _ => False) (pick t choice) := by
  have hnext : (t.select choice).state.canBecome .duplicateCheck = true := by
    rw [Task.select, h]
    rfl
  refine (advance_yields _ hnext).bind fun t' ht' => .of_pure ?_
  subst ht'
  exact ⟨_, rfl, t.stays_with _ _ _, .inl ⟨rfl, rfl⟩⟩

theorem leave_yields {state : TaskState} (h : t.state = .awaitingDecision)
    (hs : state = .skipped ∨ state = .aborted) :
    Yields (Settles t) (fun _ => False) (leave t state) := by
  have hnext : t.state.canBecome state = true := by
    obtain rfl | rfl := hs <;> rw [h] <;> rfl
  refine (advance_yields _ hnext).bind fun t' ht' => .of_pure ?_
  subst ht'
  exact ⟨_, rfl, t.stays_with _ _ _, .inr hs⟩

theorem follow_yields (env : Environment) (decision : MatchDecision)
    (h : t.state = .awaitingDecision) :
    Yields (VerdictFrom t) (fun _ => False) (follow env t decision) := by
  have again : VerdictFrom t (.again t) := ⟨.refl t, h, rfl⟩
  cases decision with
  | applyBest => exact (pick_yields _ h).mono fun _ => Settles.verdictFrom
  | applyCandidate rank =>
    simp only [follow]
    split
    · exact (pick_yields _ h).mono fun _ => Settles.verdictFrom
    · exact .of_pure again
  | useAsIs => exact (pick_yields _ h).mono fun _ => Settles.verdictFrom
  | asSingletons =>
    refine .of_pure ?_
    split
    next halbum => exact ⟨halbum, t, .refl t, rfl, rfl⟩
    · exact again
  | manualSearch query =>
    have hnext : t.clearSelection.state.canBecome .searching = true := by
      rw [Task.clearSelection, h]
      rfl
    refine (search_yields env _ (some query) hnext).bind fun t' ht' => ?_
    have hwaits : t'.state.canBecome .awaitingDecision = true := by
      rw [ht'.state]
      rfl
    refine (advance_yields t' hwaits).bind fun u hu => .of_pure ?_
    subst hu
    exact ⟨((t.stays_with _ _ _).trans ht'.toStays).trans (t'.stays_with _ _ _), rfl, ht'.tracks⟩
  | skip => exact (leave_yields h (.inl rfl)).mono fun _ => Settles.verdictFrom
  | abort =>
    exact (leave_yields h (.inr rfl)).bind fun v hv =>
      (Yields.of_lift _).bind fun _ _ => .of_pure hv.verdictFrom

theorem ChoiceFrom.of_stays {c : Choice} (ht : t.Stays t') (htracks : t'.tracks = t.tracks)
    (h : ChoiceFrom t' c) : ChoiceFrom t c := by
  cases c with
  | task u => exact ⟨ht.trans h.toStays, h.state⟩
  | split children =>
    obtain ⟨halbum, u, hu, hut, rfl⟩ := h
    exact ⟨ht.isAlbum ▸ halbum, u, ht.toAkin.trans hu, hut.trans htracks, rfl⟩

/-- An abort ends the questions about a task. -/
private theorem abort_yields (h : t.state = .awaitingDecision) :
    Yields (ChoiceFrom t) (fun _ => False) (do return .task (← advance t .aborted)) := by
  have hnext : t.state.canBecome .aborted = true := by
    rw [h]
    rfl
  refine (advance_yields _ hnext).bind fun t' ht' => .of_pure ?_
  subst ht'
  exact ⟨t.stays_with _ _ _, .inr (.inr rfl)⟩

theorem deliberate_yields (env : Environment) (decisions : List MatchDecision)
    (h : t.state = .awaitingDecision) :
    Yields (ChoiceFrom t) (fun _ => False) (deliberate env decisions t) := by
  induction decisions generalizing t with
  | nil =>
    unfold deliberate
    refine (Yields.of_lift _).bind fun aborted _ => ?_
    split
    · exact abort_yields h
    · refine (Yields.of_lift _).bind fun _ _ => ?_
      split
      · exact (leave_yields h (.inl rfl)).bind fun v hv => .of_pure hv.choiceFrom
      · exact (pick_yields _ h).bind fun v hv => .of_pure hv.choiceFrom
  | cons decision rest ih =>
    unfold deliberate
    refine (Yields.of_lift _).bind fun aborted _ => ?_
    split
    · exact abort_yields h
    · refine (Yields.of_lift _).bind fun _ _ => (Yields.of_lift _).bind fun _ _ => ?_
      refine (follow_yields env decision h).bind fun v hv => ?_
      cases v with
      | settled c => exact .of_pure hv
      | again u =>
        obtain ⟨hu, hstate, htracks⟩ := hv
        exact (ih hstate).mono fun _ => ChoiceFrom.of_stays hu htracks

theorem choose_yields (env : Environment) (h : t.state = .searching) :
    Yields (ChoiceFrom t) (fun _ => False) (choose env t) := by
  unfold choose
  split
  next best _ _ =>
    have hnext : (t.select (.matched best)).state.canBecome .duplicateCheck = true := by
      rw [Task.select, h]
      rfl
    refine (advance_yields _ hnext).bind fun t' ht' => .of_pure ?_
    subst ht'
    exact ⟨t.stays_with _ _ _, .inl ⟨rfl, rfl⟩⟩
  · have hwaits : t.state.canBecome .awaitingDecision = true := by
      rw [h]
      rfl
    refine (advance_yields t hwaits).bind fun t' ht' => ?_
    subst ht'
    exact Yields.of_get.bind fun _ _ =>
      (deliberate_yields env _ rfl).mono fun _ => ChoiceFrom.of_stays (t.stays_with _ _ _) rfl

theorem look_consults (s : Session) : Consults s s.look := by
  have hworks : Works s s.look ∧ s.look.files = s.files ∧ s.look.tags = s.tags := by
    refine ⟨⟨?_, look_aborted, [], ?_, by simp⟩, ?_, ?_⟩
    all_goals
      unfold look
      split <;> simp
  exact ⟨hworks.1, hworks.2.1, hworks.2.2⟩

theorem isAborted_consults : Does Consults isAborted := look_consults

theorem raiseAbort_consults : Does Consults raiseAbort :=
  fun _ => ⟨⟨rfl, fun _ => rfl, [], by simp [raiseAbort], by simp⟩, rfl, rfl⟩

theorem consults_searches (env : Environment) : Searches env Consults :=
  ⟨consults_calls env, fun _ _ => record_consults rfl⟩

theorem advance_consults (t : Task) (next : TaskState) : Tries Consults (advance t next) :=
  consults_steady.advance t next

theorem search_consults (env : Environment) (t : Task) (query : Option ManualQuery) :
    Tries Consults (search env t query) := (consults_searches env).search t query

theorem ask_consults (env : Environment) (t : Task) : Does Consults (ask env t) :=
  consults_steady.does_bind (record_consults rfl) fun _ =>
    consults_steady.does_bind (enter_consults env _) fun _ => consults_steady.does_pure _

theorem pick_consults (t : Task) (choice : Chosen) : Tries Consults (pick t choice) :=
  consults_steady.tries_bind (advance_consults _ _) fun _ => consults_steady.tries_pure _

theorem leave_consults (t : Task) (state : TaskState) : Tries Consults (leave t state) :=
  consults_steady.tries_bind (advance_consults _ _) fun _ => consults_steady.tries_pure _

theorem follow_consults (env : Environment) (t : Task) (decision : MatchDecision) :
    Tries Consults (follow env t decision) := by
  cases decision with
  | applyBest => exact pick_consults t _
  | applyCandidate rank =>
    simp only [follow]
    split
    · exact pick_consults t _
    · exact consults_steady.tries_pure _
  | useAsIs => exact pick_consults t _
  | asSingletons => exact consults_steady.tries_pure _
  | manualSearch query =>
    exact consults_steady.tries_bind (search_consults env _ _) fun _ =>
      consults_steady.tries_bind (advance_consults _ _) fun _ => consults_steady.tries_pure _
  | skip => exact leave_consults t _
  | abort =>
    exact consults_steady.tries_bind (leave_consults t _) fun _ =>
      consults_steady.tries_bind raiseAbort_consults.lift fun _ => consults_steady.tries_pure _

theorem deliberate_consults (env : Environment) (decisions : List MatchDecision) (t : Task) :
    Tries Consults (deliberate env decisions t) := by
  have aborts (t : Task) : Tries Consults (do return Choice.task (← advance t .aborted)) :=
    consults_steady.tries_bind (advance_consults t _) fun _ => consults_steady.tries_pure _
  induction decisions generalizing t with
  | nil =>
    unfold deliberate
    refine consults_steady.tries_bind isAborted_consults.lift fun aborted => ?_
    split
    · exact aborts t
    · refine consults_steady.tries_bind (ask_consults env t).lift fun _ => ?_
      split
      · exact consults_steady.tries_bind (leave_consults t _) fun _ => consults_steady.tries_pure _
      · exact consults_steady.tries_bind (pick_consults t _) fun _ => consults_steady.tries_pure _
  | cons decision rest ih =>
    unfold deliberate
    refine consults_steady.tries_bind isAborted_consults.lift fun aborted => ?_
    split
    · exact aborts t
    · refine consults_steady.tries_bind (ask_consults env t).lift fun _ => ?_
      have hanswers : Tries Consults (modify fun s => { s with decisions := rest } :
          Attempt Setback Unit) := fun _ => ⟨⟨rfl, id, [], by simp, by simp⟩, rfl, rfl⟩
      refine consults_steady.tries_bind hanswers fun _ => ?_
      refine consults_steady.tries_bind (follow_consults env t decision) fun v => ?_
      cases v with
      | settled c => exact consults_steady.tries_pure _
      | again u => exact ih u

/-- Whatever is answered, choosing an outcome leaves files, tags and catalog alone. -/
theorem choose_consults (env : Environment) (t : Task) : Tries Consults (choose env t) := by
  unfold choose
  split
  · exact consults_steady.tries_bind (advance_consults _ _) fun _ => consults_steady.tries_pure _
  · exact consults_steady.tries_bind (advance_consults _ _) fun t =>
      consults_steady.tries_bind consults_steady.tries_get fun _ => deliberate_consults env _ t

end Session
end MusicImport
