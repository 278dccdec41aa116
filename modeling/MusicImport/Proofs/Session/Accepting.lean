import MusicImport.Proofs.Scoring.Similarity
import MusicImport.Proofs.Session.Reporting
import MusicImport.Proofs.Session.Departing

/-! Matches that are taken without asking. Searches and questions can be told from the log. A task that is
applied was asked about after its last search, or that search was an automatic one and its best match
is strong. -/
namespace MusicImport

/-- The event of a search. -/
def Event.searches : Event → Bool
  | .searched _ _ => true
  | _ => false

/-- The event of a question which match to take. -/
def Event.asks : Event → Bool
  | .asked _ _ _ => true
  | _ => false

namespace Session

variable {ε α : Type} {s s' u : Session} {env : Environment} {t t' : Task}

/-- The log goes on. -/
def Grows (s s' : Session) : Prop := s.log <+: s'.log

theorem Grows.refl (s : Session) : Grows s s := List.prefix_refl _

theorem Grows.trans (h : Grows s u) (h' : Grows u s') : Grows s s' := List.IsPrefix.trans h h'

theorem Consults.grows (h : Consults s s') : Grows s s' := by
  obtain ⟨es, hlog, -⟩ := h.log
  exact ⟨es, hlog.symm⟩

/-- Nothing was searched, and nobody was asked which match to take. -/
def Quiet (s s' : Session) : Prop :=
  ∃ es, s'.log = s.log ++ es ∧ ∀ e ∈ es, e.searches = false ∧ e.asks = false

theorem Quiet.of_log (h : s'.log = s.log) : Quiet s s' := ⟨[], by simp [h], by simp⟩

theorem Quiet.grows (h : Quiet s s') : Grows s s' := by
  obtain ⟨es, hlog, -⟩ := h
  exact ⟨es, hlog.symm⟩

theorem quiet_steady : Steady Quiet where
  refl _ := .of_log rfl
  trans := by
    rintro s u v ⟨es, hu, hes⟩ ⟨fs, hv, hfs⟩
    refine ⟨es ++ fs, by rw [hv, hu, List.append_assoc], fun e he => ?_⟩
    obtain he | he := List.mem_append.mp he
    · exact hes e he
    · exact hfs e he

theorem quiet_calls (env : Environment) : Calls env Quiet := ⟨quiet_steady, fun _ _ _ => .of_log rfl⟩

theorem look_quiet (s : Session) : Quiet s s.look := by
  apply Quiet.of_log
  unfold look
  split <;> rfl

/-- The candidates as they are shown with a question. -/
def shown (t : Task) : List (String × Float) := t.candidates.map fun m => (m.candidate.id, m.similarity)

theorem ask_log (env : Environment) (t : Task) (s : Session) :
    (s.doing (ask env t)).2.log = s.log ++ [.asked t.key t.state (shown t)] := rfl

theorem pick_ok {choice : Chosen} {v : Verdict} (h : s.trying (pick t choice) = (.ok v, s')) :
    v = .settled (.task { t.select choice with state := .duplicateCheck }) ∧ s' = s := by
  obtain ⟨u, w, hadvance, hpure⟩ := trying_bind_ok.mp h
  obtain ⟨rfl, rfl⟩ := advance_ok hadvance
  cases hpure
  exact ⟨rfl, rfl⟩

theorem leave_ok {state : TaskState} {v : Verdict} (h : s.trying (leave t state) = (.ok v, s')) :
    v = .settled (.task { t with state := state }) ∧ s' = s := by
  obtain ⟨u, w, hadvance, hpure⟩ := trying_bind_ok.mp h
  obtain ⟨rfl, rfl⟩ := advance_ok hadvance
  cases hpure
  exact ⟨rfl, rfl⟩

/-- An answer that takes an outcome takes it for the candidates that were shown. -/
theorem follow_settled {decision : MatchDecision}
    (h : s.trying (follow env t decision) = (.ok (.settled (.task t')), s'))
    (hlive : ¬ t'.state.isTerminal = true) :
    t'.key = t.key ∧ t'.candidates = t.candidates ∧ s' = s := by
  have picked {choice : Chosen} (h : s.trying (pick t choice) = (.ok (.settled (.task t')), s')) :
      t'.key = t.key ∧ t'.candidates = t.candidates ∧ s' = s := by
    obtain ⟨htask, hs'⟩ := pick_ok h
    cases htask
    exact ⟨rfl, rfl, hs'⟩
  cases decision with
  | applyBest => exact picked h
  | applyCandidate rank =>
    simp only [follow] at h
    split at h
    · exact picked h
    · cases h
  | useAsIs => exact picked h
  | asSingletons =>
    simp only [follow] at h
    split at h <;> cases h
  | manualSearch query =>
    obtain ⟨_, _, -, hrest⟩ := trying_bind_ok.mp h
    obtain ⟨_, _, -, hpure⟩ := trying_bind_ok.mp hrest
    cases hpure
  | skip =>
    obtain ⟨htask, -⟩ := leave_ok h
    cases htask
    exact absurd rfl hlive
  | abort =>
    obtain ⟨v, w, hleave, hrest⟩ := trying_bind_ok.mp h
    obtain ⟨rfl, -⟩ := leave_ok hleave
    obtain ⟨_, _, -, hpure⟩ := trying_bind_ok.mp hrest
    cases hpure
    exact absurd rfl hlive

/-- An outcome that was asked for is taken right after the last question, which was about the candidates
that the task still has. -/
theorem deliberate_asked {decisions : List MatchDecision} (ht : t.state = .awaitingDecision)
    (h : s.trying (deliberate env decisions t) = (.ok (.task t'), s'))
    (hlive : ¬ t'.state.isTerminal = true) :
    ∃ u, Grows s u ∧ s'.log = u.log ++ [.asked t'.key .awaitingDecision (shown t')] := by
  have aborted {t : Task} {s s' : Session}
      (h : s.trying (do return Choice.task (← advance t .aborted)) = (.ok (.task t'), s')) : False := by
    obtain ⟨v, w, hadvance, hpure⟩ := trying_bind_ok.mp h
    obtain ⟨rfl, -⟩ := advance_ok hadvance
    cases hpure
    exact hlive rfl
  induction decisions generalizing s t with
  | nil =>
    have hlook : Grows s s.look := (look_consults s).grows
    unfold deliberate at h
    rw [trying_bind, trying_liftM, doing_isAborted] at h
    dsimp only at h
    split at h
    · exact (aborted h).elim
    rw [trying_bind, trying_liftM] at h
    dsimp only at h
    split at h
    · obtain ⟨v, w, hleave, hpure⟩ := trying_bind_ok.mp h
      obtain ⟨rfl, -⟩ := leave_ok hleave
      cases hpure
      exact absurd rfl hlive
    · obtain ⟨v, w, hpick, hpure⟩ := trying_bind_ok.mp h
      obtain ⟨rfl, rfl⟩ := pick_ok hpick
      cases hpure
      exact ⟨s.look, hlook, by rw [ask_log, ht]; rfl⟩
  | cons decision rest ih =>
    have hlook : Grows s s.look := (look_consults s).grows
    unfold deliberate at h
    rw [trying_bind, trying_liftM, doing_isAborted] at h
    dsimp only at h
    split at h
    · exact (aborted h).elim
    rw [trying_bind, trying_liftM] at h
    dsimp only at h
    rw [trying_bind, trying_modify] at h
    dsimp only at h
    obtain ⟨v, w, hfollow, hrest⟩ := trying_bind_ok.mp h
    cases v with
    | settled c =>
      cases hrest
      obtain ⟨hkey, hcandidates, rfl⟩ := follow_settled hfollow hlive
      refine ⟨s.look, hlook, ?_⟩
      show (s.look.doing (ask env t)).2.log = _
      rw [ask_log, ht, hkey, shown, shown, hcandidates]
    | again t₁ =>
      obtain ⟨-, hstate, -⟩ := (follow_yields env decision ht).ok hfollow
      have hasked : Grows s.look { (s.look.doing (ask env t)).2 with decisions := rest } :=
        List.prefix_append _ _
      have hfollowed := ((follow_consults env t decision).result hfollow).grows
      obtain ⟨u, hu, hlog⟩ := ih hstate hrest
      exact ⟨u, ((hlook.trans hasked).trans hfollowed).trans hu, hlog⟩

/-- An outcome is chosen because the best match is strong, or after a question. -/
theorem choose_accepts (h : s.trying (choose env t) = (.ok (.task t'), s'))
    (hlive : ¬ t'.state.isTerminal = true) :
    (∃ best, recommend env.config.matching t.candidates = .strong ∧ t.candidates.head? = some best ∧
      t' = { t.select (.matched best) with state := .duplicateCheck } ∧ s' = s) ∨
    ∃ u, Grows s u ∧ s'.log = u.log ++ [.asked t'.key .awaitingDecision (shown t')] := by
  unfold choose at h
  split at h
  next best hstrong hbest =>
    obtain ⟨u, v, hadvance, hpure⟩ := trying_bind_ok.mp h
    obtain ⟨rfl, rfl⟩ := advance_ok hadvance
    cases hpure
    exact .inl ⟨best, hstrong, hbest, rfl, rfl⟩
  · obtain ⟨u, v, hadvance, hask⟩ := trying_bind_ok.mp h
    obtain ⟨rfl, rfl⟩ := advance_ok hadvance
    exact .inr (deliberate_asked rfl hask hlive)

theorem findDuplicates_quiet (env : Environment) (identity : Identity) :
    Tries Quiet (findDuplicates env identity) := (quiet_calls env).findDuplicates identity

theorem askDuplicate_quiet (env : Environment) (t : Task) (existing : List CatalogEntry) :
    Does Quiet (askDuplicate env t existing) := by
  intro s
  unfold askDuplicate
  simp only [doing_bind, doing_get]
  split
  · exact ⟨[.duplicate t.key existing], rfl, by simp [Event.searches, Event.asks]⟩
  · exact ⟨[.duplicate t.key existing], rfl, by simp [Event.searches, Event.asks]⟩

theorem removeOld_quiet (env : Environment) (t : Task) (existing : List CatalogEntry) :
    Tries Quiet (removeOld env t existing) :=
  (quiet_calls env).removeOld (fun _ _ _ => .of_log rfl) t existing

/-- A task goes on with the candidates that it had, and nothing is searched. -/
theorem checkDuplicates_proceeds (h : s.trying (checkDuplicates env t) = (.ok (.proceed t'), s')) :
    Quiet s s' ∧ t'.candidates = t.candidates ∧ t'.selection = t.selection ∧ t'.key = t.key := by
  have hfinds := findDuplicates_quiet env t.identity
  cases checkDuplicates_check h with
  | spared => exact ⟨.of_log rfl, rfl, rfl, rfl⟩
  | unique hfind => exact ⟨hfinds.result hfind, rfl, rfl, rfl⟩
  | stopped hfind haborted hadvance =>
    obtain ⟨_, _, -, hpure⟩ := trying_bind_ok.mp hadvance
    cases hpure
  | asked hfind hrivals hlive hask hcarry =>
    have hfound := quiet_steady.trans (hfinds.result hfind) (look_quiet _)
    have hasked := quiet_steady.trans hfound ((askDuplicate_quiet env t _).result hask)
    cases carryOut_ok hcarry with
    | kept => exact ⟨hasked, rfl, rfl, rfl⟩
    | removed hremove =>
      exact ⟨quiet_steady.trans hasked ((removeOld_quiet env t _).result hremove), rfl, rfl, rfl⟩
    | replaced _ => exact ⟨hasked, rfl, rfl, rfl⟩

/-- A search for the tags of a task, the last thing before a session. -/
def SearchedLast (env : Environment) (s : Session) (t : Task) (s' : Session) : Prop :=
  ∃ u v, Grows s v ∧ v.trying (search env u none) = (.ok t, s')

/-- A merge ends with a search. -/
theorem checkDuplicates_merges (h : s.trying (checkDuplicates env t) = (.ok (.merged t'), s')) :
    SearchedLast env s t' s' := by
  have hfinds := findDuplicates_quiet env t.identity
  cases checkDuplicates_check h with
  | stopped hfind haborted hadvance =>
    obtain ⟨_, _, -, hpure⟩ := trying_bind_ok.mp hadvance
    cases hpure
  | @asked _ u v _ _ _ hfind hrivals hlive hask hcarry =>
    have hfound := quiet_steady.trans (hfinds.result hfind) (look_quiet u)
    have hasked := quiet_steady.trans hfound ((askDuplicate_quiet env t _).result hask)
    cases carryOut_ok hcarry with
    | merged hmerge =>
      obtain ⟨t₁, s₂, habsorb, hsearch⟩ := trying_bind_ok.mp hmerge
      have habsorbed := ((quiet_calls env).absorbAll _ t _).result habsorb
      exact ⟨_, s₂, (quiet_steady.trans hasked habsorbed).grows, hsearch⟩

theorem SearchedLast.of_grows (hs : Grows s u) (h : SearchedLast env u t s') : SearchedLast env s t s' := by
  obtain ⟨w, v, hv, hsearch⟩ := h
  exact ⟨w, v, hs.trans hv, hsearch⟩

/-- Before its last round a task has just been searched for, or there was no other round. -/
theorem Rounds.searchedLast {t t' : Task} {s s' : Session} (h : Rounds env t s t' s') :
    t' = t ∧ s' = s ∨ SearchedLast env s t' s' := by
  induction h with
  | refl => exact .inl ⟨rfl, rfl⟩
  | @merge t u v t' s s₁ s₂ s' _ hchoose _ hcheck _ ih =>
    have hchosen : Grows s s₁ := ((look_consults s).trans ((choose_consults env t).result hchoose)).grows
    have hmerged := (checkDuplicates_merges hcheck).of_grows hchosen
    obtain ⟨rfl, rfl⟩ | hlater := ih
    · exact .inr hmerged
    · obtain ⟨w, w', hw, hsearch⟩ := hmerged
      exact .inr (hlater.of_grows (hw.trans ((search_consults env w none).result hsearch).grows))

theorem Begins.searchedLast {t₁ : Task} {s₁ : Session} (hb : Begins env t s t₁ s₁)
    (hr : Rounds env t₁ s₁ t' s') (hlook : s'.look.aborted = false) :
    t' = t ∧ s' = s.look ∧ t.state ≠ .grouped ∨ SearchedLast env s t' s' := by
  have hlooked : Grows s s.look := (look_consults s).grows
  cases hb with
  | searched hsearch =>
    obtain ⟨rfl, rfl⟩ | hlast := hr.searchedLast
    · exact .inr ⟨t, s.look, hlooked, hsearch⟩
    · have hsearched := ((search_consults env t none).result hsearch).grows
      exact .inr (hlast.of_grows (hlooked.trans hsearched))
  | kept hkept =>
    obtain ⟨rfl, rfl⟩ | hlast := hr.searchedLast
    · refine .inl ⟨rfl, rfl, hkept.resolve_right fun haborted => ?_⟩
      rw [look_aborted haborted] at hlook
      cases hlook
    · exact .inr (hlast.of_grows hlooked)

/-- What is said for a match at once: nothing that its settings count against it. -/
structure Strong (c : MatchConfig Float) (best : Match Float) (next? : Option (Match Float)) : Prop where
  notBelow : ¬ best.similarity < c.autoAcceptThreshold
  reaches : c.autoAcceptThreshold.isNaN = false → c.autoAcceptThreshold ≤ best.similarity
  missing : c.missingTracksBlockAuto = true → best.missingTracks = 0
  complete : c.unmatchedTracksBlockAuto = true → best.isPartial = false
  agreed : ∀ next, next? = some next → best.candidate.source = next.candidate.source ∨
    best.normalParts = next.normalParts ∨ ¬ best.similarity - next.similarity < c.disagreementMargin

theorem agreed_of_disagrees {margin : Float} {best next : Match Float}
    (h : best.disagrees margin next = false) : best.candidate.source = next.candidate.source ∨
      best.normalParts = next.normalParts ∨ ¬ best.similarity - next.similarity < margin := by
  unfold Match.disagrees at h
  simp only [Bool.and_eq_false_iff, bne_eq_false_iff_eq] at h
  obtain (h | h) | h := h
  · exact .inl h
  · exact .inr (.inl h)
  · exact .inr (.inr (of_decide_eq_false h))

theorem strong_of_recommend {c : MatchConfig Float} {best : Match Float} {rest : List (Match Float)}
    (h : recommend c (best :: rest) = .strong) : Strong c best rest.head? := by
  simp only [recommend] at h
  split at h
  · cases h
  next hbelow =>
  split at h
  · cases h
  next hmissing =>
  split at h
  · cases h
  next hpartial =>
  have hnotBelow : ¬ best.similarity < c.autoAcceptThreshold := fun hlt => hbelow (decide_eq_true hlt)
  refine ⟨hnotBelow, Scoring.le_similarity hnotBelow, fun hblock => ?_, fun hblock => ?_, ?_⟩
  · simpa [hblock] using hmissing
  · simpa [hblock] using hpartial
  · intro next hnext
    cases rest with
    | nil => cases hnext
    | cons second others =>
      obtain rfl := Option.some.inj hnext
      dsimp only at h
      split at h
      · cases h
      next hagrees => exact agreed_of_disagrees (Bool.eq_false_iff.mpr hagrees)

variable {d : Departure}

/-- The last question was put after the last search, and was about the candidates that the task has. -/
def Answered (d : Departure) : Prop := ∃ u, Grows d.before u ∧ ∃ after,
  d.after.log = u.log ++ .asked d.result.task.key .awaitingDecision (shown d.result.task) :: after ∧
    ∀ e ∈ after, e.searches = false ∧ e.asks = false

/-- The candidates are those of a search for the tags of the task, and nothing was searched or asked
after it. -/
def FoundAutomatically (env : Environment) (s : Session) (d : Departure) : Prop :=
  ∃ u v, SearchedLast env s u v ∧ u.candidates = d.result.task.candidates ∧ Quiet v d.after

/-- The task has the candidates that it came with, and nothing was searched or asked. -/
structure Brought (d : Departure) : Prop where
  candidates : d.result.task.candidates = d.task.candidates
  quiet : Quiet d.before d.after
  searched : d.task.state ≠ .grouped

/-- The best of the candidates was taken, and it is a strong one. -/
structure Accepted (env : Environment) (d : Departure) (best : Match Float) : Prop where
  chosen : d.result.task.chosen = some (.matched best)
  first : d.result.task.candidates.head? = some best
  strong : Strong env.config.matching best d.result.task.candidates[1]?
  found : FoundAutomatically env d.before d ∨ Brought d

theorem answered_or_accepted (hd : d ∈ departures env t s) (h : d.result.task.state = .applying) :
    Answered d ∨ ∃ best, Accepted env d best := by
  obtain ⟨u, v, u', v', w, w', choice, ha⟩ := exists_approval hd h
  obtain ⟨t₁, s₁, hbegins, hrounds⟩ := ha.rounds
  have hlive : ¬ u'.state.isTerminal = true := by
    rw [ha.selected.state]
    exact Bool.false_ne_true
  obtain ⟨hchecked, hcandidates, hselection, hkey⟩ := checkDuplicates_proceeds ha.checked
  have hend : Quiet v' d.after := by
    rw [ha.after]
    exact quiet_steady.trans hchecked (look_quiet w')
  have hresult : d.result.task.candidates = u'.candidates := by rw [ha.result, ← hcandidates]
  obtain ⟨best, hstrong, hbest, rfl, rfl⟩ | ⟨x, hx, hlog⟩ := choose_accepts ha.chose hlive
  · refine .inr ⟨best, ?_⟩
    have hquiet : Quiet v d.after := quiet_steady.trans (look_quiet v) hend
    have hfirst : d.result.task.candidates = u.candidates := hresult
    have hchoice : choice = .matched best := by
      have hsome := ha.selection
      rw [hselection] at hsome
      exact (Option.some.inj hsome).symm
    constructor
    · rw [ha.result, hchoice]
    · rw [hfirst, hbest]
    · rw [hfirst]
      cases hlist : u.candidates with
      | nil =>
        rw [hlist] at hbest
        cases hbest
      | cons first rest =>
        rw [hlist] at hbest hstrong
        obtain rfl := Option.some.inj hbest
        rw [List.getElem?_cons_succ, ← List.head?_eq_getElem?]
        exact strong_of_recommend hstrong
    · obtain ⟨rfl, rfl, hsearched⟩ | hlast := hbegins.searchedLast hrounds ha.unstopped
      · exact .inr ⟨hfirst, quiet_steady.trans (look_quiet _) hquiet, hsearched⟩
      · exact .inl ⟨u, v, hlast, hfirst.symm, hquiet⟩
  · obtain ⟨after, hafter, hquiet⟩ := hend
    have hbefore : Grows d.before v := by
      obtain ⟨-, rfl, -⟩ | ⟨y, y', hy, hsearch⟩ := hbegins.searchedLast hrounds ha.unstopped
      · exact (look_consults _).grows
      · exact hy.trans ((search_consults env y none).result hsearch).grows
    have hshown : shown d.result.task = shown u' := by rw [shown, shown, hresult]
    have hsame : d.result.task.key = u'.key := by rw [ha.result, ← hkey]
    refine .inl ⟨x, (hbefore.trans (look_consults v).grows).trans hx, after, ?_, hquiet⟩
    rw [hafter, hlog, hshown, hsame, List.append_assoc, List.singleton_append]

theorem searchGrouped_last (h : s.doing (searchGrouped env t) = (t', s')) (ht : t.state = .grouped)
    (hsearched : t'.state ≠ .grouped) : SearchedLast env s t' s' := by
  have hnext : t.state.canBecome .searching = true := by
    rw [ht]
    rfl
  unfold searchGrouped at h
  rw [doing_bind, doing_isAborted] at h
  dsimp only at h
  split at h
  · cases h
    exact absurd ht hsearched
  · rw [doing_bind, doing_run] at h
    rcases hr : s.look.trying (search env t none) with ⟨b | v, w⟩
    · exact ((search_yields env t none hnext).error hr).elim
    · rw [hr] at h
      cases h
      exact ⟨t, s.look, (look_consults s).grows, hr⟩

theorem grows_bears (env : Environment) : Bears env Grows :=
  .of_consults ⟨.refl, .trans⟩ Consults.grows (fun t existing s => (askDuplicate_quiet env t existing s).grows)
    fun t existing s => (removeOld_quiet env t existing s).grows

/-- A task that nobody was asked about after its last search gets the best of its candidates, and only if
that is a strong match. It has the candidates of an automatic search, or those that it came with; where
it comes from the first search for its group, they are those of an automatic one in either case. -/
theorem accepted_unless_answered (hd : d ∈ departures env t s) (h : d.result.task.state = .applying)
    (hunasked : ¬ Answered d) :
    (∃ best, Accepted env d best) ∧
      ∀ group s₀, group.state = .grouped → s₀.doing (searchGrouped env group) = (t, s) →
        FoundAutomatically env s₀ d := by
  obtain ⟨best, haccepted⟩ := (answered_or_accepted hd h).resolve_left hunasked
  refine ⟨⟨best, haccepted⟩, fun group s₀ hgroup hfirst => ?_⟩
  obtain ⟨u, v, hlast, hfound, hquiet⟩ | hbrought := haccepted.found
  · have hbears := grows_bears env
    have hbegun := (searchGrouped_does hbears.steady hbears.looks hbears.searches group).result hfirst
    have hbefore : Grows s d.before := hbears.before hd
    exact ⟨u, v, hlast.of_grows (hbegun.trans hbefore), hfound, hquiet⟩
  · obtain ⟨htask, hbefore⟩ := (departure_task hd).resolve_right hbrought.searched
    have hlast := searchGrouped_last hfirst hgroup (htask ▸ hbrought.searched)
    rw [← htask, ← hbefore] at hlast
    exact ⟨d.task, d.before, hlast, hbrought.candidates.symm, hbrought.quiet⟩

/-- A source that has the one album which `recordedX` is. -/
def stocked : Environment :=
  { config := {}, layout := .template ⟨"one", true⟩
    sources := [.ofStock "discs" [{ id := "1", artist := "A", album := "X", tracks := [{ title := "One" }] }] []] }

def recordedX : Task :=
  { key := "in", isAlbum := true, state := .grouped
    tracks := [{ path := ⟨"in/a.flac"⟩, title := some "One", artist := some "A", album := some "X" }] }

/-- After the first search for `recordedX`. -/
def recordedSearched : Task × Session := doing { files := {} } (searchGrouped stocked recordedX)

theorem accepted_unless_answered_recorded :
    ∃ d ∈ departures stocked recordedSearched.1 recordedSearched.2,
      d.result.task.state = .applying ∧ FoundAutomatically stocked { files := {} } d ∧
        ∃ best, Accepted stocked d best := by
  have hany : (departures stocked recordedSearched.1 recordedSearched.2).any fun d =>
      d.result.task.state = .applying && !d.after.log.any Event.asks := by decide +kernel
  obtain ⟨d, hd, hchecks⟩ := List.any_eq_true.mp hany
  obtain ⟨hstate, hsilent⟩ : d.result.task.state = .applying ∧ ∀ e ∈ d.after.log, ¬ e.asks = true := by
    simpa using hchecks
  have hunasked : ¬ Answered d := by
    rintro ⟨u, -, after, hlog, -⟩
    have hmem : _ ∈ d.after.log := hlog ▸ List.mem_append_right _ (.head _)
    exact hsilent _ hmem rfl
  obtain ⟨haccepted, hfirst⟩ := accepted_unless_answered hd hstate hunasked
  exact ⟨d, hd, hstate, hfirst recordedX { files := {} } rfl rfl, haccepted⟩

end Session
end MusicImport
