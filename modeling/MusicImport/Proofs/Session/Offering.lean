import Mathlib.Data.List.Perm.Subperm
import MusicImport.Proofs.Session.Shrinking

/-! The questions about duplicates of one task. Each is about entries that the task does not replace, and
what a merge takes in is replaced from then on. So no entry comes up twice, there are no more
questions than entries, and the merges of a task come to an end. -/
namespace MusicImport

/-- The task and the entries that a question about duplicates is about. -/
def Event.offer? : Event → Option (GroupKey × List EntryId)
  | .duplicate key existing => some (key, existing.map (·.id))
  | _ => none

namespace Session

variable {s s' u : Session} {env : Environment} {t t' : Task} {c : Catalog}
  {questions later : List (GroupKey × List EntryId)}

/-- The questions about duplicates that are put between two sessions. -/
def Offers (s : Session) (questions : List (GroupKey × List EntryId)) (s' : Session) : Prop :=
  ∃ events, s'.log = s.log ++ events ∧ events.filterMap Event.offer? = questions

theorem Offers.of_log (h : s'.log = s.log) : Offers s [] s' := Logs.of_log h

theorem Offers.trans (h : Offers s questions u) (h' : Offers u later s') :
    Offers s (questions ++ later) s' := Logs.trans h h'

theorem Works.offers (h : Works s s') : Offers s [] s' := by
  obtain ⟨events, hlog, hnone⟩ := h.log
  refine ⟨events, hlog, List.filterMap_eq_nil_iff.mpr fun e he => ?_⟩
  have hasks := hnone e he
  cases e with
  | duplicate _ _ => cases hasks
  | _ => rfl

/-- Questions about a task: each is about entries that the task does not replace, and none of them is
about an entry of another. -/
structure Offering (c : Catalog) (t : Task) (questions : List (GroupKey × List EntryId)) : Prop where
  key : ∀ q ∈ questions, q.1 = t.key
  nonempty : ∀ q ∈ questions, q.2 ≠ []
  entries : ∀ q ∈ questions, q.2 ⊆ c.entries
  fresh : ∀ q ∈ questions, q.2.Disjoint t.replaces
  apart : questions.Pairwise fun q r => q.2.Disjoint r.2

namespace Offering

theorem nil (c : Catalog) (t : Task) : Offering c t [] := ⟨by simp, by simp, by simp, by simp, .nil⟩

/-- A task that was asked about may have gone on, and replaces no less. -/
theorem of_stays (hstays : t.Stays t') (h : Offering c t' questions) : Offering c t questions where
  key q hq := (h.key q hq).trans hstays.key
  nonempty := h.nonempty
  entries := h.entries
  fresh q hq _ hid hreplaced := h.fresh q hq hid (hstays.replaces hreplaced)
  apart := h.apart

/-- Questions about a task that replaces what it was asked about before. -/
theorem append (h : Offering c t questions) (hreplaced : ∀ q ∈ questions, q.2 ⊆ t'.replaces)
    (hstays : t.Stays t') (h' : Offering c t' later) : Offering c t (questions ++ later) where
  key := List.forall_mem_append.mpr ⟨h.key, (h'.of_stays hstays).key⟩
  nonempty := List.forall_mem_append.mpr ⟨h.nonempty, h'.nonempty⟩
  entries := List.forall_mem_append.mpr ⟨h.entries, h'.entries⟩
  fresh := List.forall_mem_append.mpr ⟨h.fresh, (h'.of_stays hstays).fresh⟩
  apart := List.pairwise_append.mpr
    ⟨h.apart, h'.apart, fun q hq r hr _ hid hid' => h'.fresh r hr hid' (hreplaced q hq hid)⟩

/-- Each question is about an entry that no other is about. -/
theorem length_le (h : Offering c t questions) : questions.length ≤ c.entries.length := by
  let first (q : GroupKey × List EntryId) : EntryId := q.2.head?.getD (.item 0)
  have hfirst (q : GroupKey × List EntryId) (hq : q ∈ questions) : first q ∈ q.2 := by
    obtain ⟨id, rest, hids⟩ := List.exists_cons_of_ne_nil (h.nonempty q hq)
    simp [first, hids]
  have hnodup : (questions.map first).Nodup := by
    refine List.pairwise_map.mpr (h.apart.imp_of_mem fun {q r} hq hr hdisjoint hsame => ?_)
    exact hdisjoint (hfirst q hq) (hsame ▸ hfirst r hr)
  have hsubset : questions.map first ⊆ c.entries := by
    intro id hid
    obtain ⟨q, hq, rfl⟩ := List.mem_map.mp hid
    exact h.entries q hq (hfirst q hq)
  calc questions.length = (questions.map first).length := List.length_map first |>.symm
    _ ≤ c.entries.length := (List.Nodup.subperm hnodup hsubset).length_le

end Offering

theorem rivals_offering (h : rivals c t ≠ []) : Offering c t [(t.key, (rivals c t).map (·.id))] := by
  have hrival (id : EntryId) (hid : id ∈ (rivals c t).map (·.id)) : id ∈ c.entries ∧ id ∉ t.replaces := by
    obtain ⟨e, he, rfl⟩ := List.mem_map.mp hid
    obtain ⟨hfound, hnew⟩ := List.mem_filter.mp he
    exact ⟨Catalog.mem_entries_of_duplicate hfound, by simpa using hnew⟩
  refine ⟨?_, ?_, ?_, ?_, List.pairwise_singleton _ _⟩
  all_goals
    intro q hq
    obtain rfl := List.mem_singleton.mp hq
  · rfl
  · simpa using h
  · exact fun id hid => (hrival id hid).1
  · exact fun id hid => (hrival id hid).2

theorem askDuplicate_offers (env : Environment) (t : Task) (existing : List CatalogEntry) (s : Session) :
    Offers s [(t.key, existing.map (·.id))] (s.doing (askDuplicate env t existing)).2 := by
  unfold askDuplicate
  simp only [doing_bind, doing_get]
  split
  · exact ⟨[.duplicate t.key existing], rfl, rfl⟩
  · exact ⟨[.duplicate t.key existing], rfl, rfl⟩

/-- No question about duplicates is put. -/
abbrev Unoffered (s s' : Session) : Prop := Offers s [] s'

theorem unoffered_steady : Steady Unoffered := Logs.steady _

theorem unoffered_calls (env : Environment) : Calls env Unoffered := Logs.calls _ env

theorem removeOld_unoffered (env : Environment) (t : Task) (existing : List CatalogEntry) :
    Tries Unoffered (removeOld env t existing) :=
  (unoffered_calls env).removeOld (fun _ _ _ => .of_log rfl) t existing

/-- An answer is carried out without another question. -/
theorem carryOut_unoffered (env : Environment) (t : Task) (existing : List CatalogEntry)
    (answer : DuplicateDecision) : Tries Unoffered (carryOut env t existing answer) := by
  cases answer with
  | skipNew =>
    exact unoffered_steady.tries_bind (unoffered_steady.advance _ _) fun _ => unoffered_steady.tries_pure _
  | keepBoth => exact unoffered_steady.tries_pure _
  | removeOld =>
    exact unoffered_steady.tries_bind ((removeOld_unoffered env t existing).adapt _) fun _ =>
      unoffered_steady.tries_pure _
  | merge =>
    simp only [carryOut]
    split
    · have hmerges : Tries Unoffered (merge env t existing) := fun s => (merge_consults env t existing s).offers
      exact unoffered_steady.tries_bind hmerges fun _ => unoffered_steady.tries_pure _
    · exact unoffered_steady.tries_pure _

/-- Of the entries of a catalog a task is asked about those that it does not replace, if about any. A
merge takes in all that it was asked about. -/
theorem checkDuplicates_offers (hstate : t.state = .duplicateCheck) {x : Except Setback DuplicateOutcome}
    (h : s.trying (checkDuplicates env t) = (x, s')) :
    ∃ questions, Offers s questions s' ∧ Offering s.catalog t questions ∧
      ∀ v, x = .ok (.merged v) → ∀ q ∈ questions, q.2 ⊆ v.replaces := by
  have hfinds := findDuplicates_consults env t.identity
  cases checkDuplicates_check h with
  | spared => exact ⟨[], .of_log rfl, .nil _ _, by simp⟩
  | unanswered hfind => exact ⟨[], (hfinds.result hfind).offers, .nil _ _, by simp⟩
  | unique hfind => exact ⟨[], (hfinds.result hfind).offers, .nil _ _, by simp⟩
  | stopped hfind haborted hadvance =>
    have hadvances : Tries Consults (do return DuplicateOutcome.finished (← advance t .aborted)) :=
      consults_steady.tries_bind (advance_consults t _) fun _ => consults_steady.tries_pure _
    have hfound := (hfinds.result hfind).trans (look_consults _)
    exact ⟨[], (hfound.trans (hadvances.result hadvance)).offers, .nil _ _, by simp⟩
  | @asked _ u v _ answer _ hfind hrivals hlive hask hcarry =>
    have hfound : Unoffered s u.look := ((hfinds.result hfind).trans (look_consults u)).offers
    have hasked := askDuplicate_offers env t (rivals s.catalog t) u.look
    rw [hask] at hasked
    have hcarried := (carryOut_unoffered env t _ answer).result hcarry
    refine ⟨_, hfound.trans (hasked.trans hcarried), rivals_offering hrivals, ?_⟩
    rintro w rfl q hq
    obtain rfl := List.mem_singleton.mp hq
    cases carryOut_ok hcarry with
    | merged hmerge =>
      obtain ⟨-, -, hall⟩ := (merge_yields env _ hstate).ok hmerge
      intro id hid
      obtain ⟨e, he, rfl⟩ := List.mem_map.mp hid
      exact hall e he

theorem Rounds.offers (h : Rounds env t s t' s') : s'.catalog = s.catalog ∧
    ∃ questions, Offers s questions s' ∧ Offering s.catalog t questions ∧
      ∀ q ∈ questions, q.2 ⊆ t'.replaces := by
  induction h with
  | refl t s => exact ⟨rfl, [], .of_log rfl, .nil _ _, by simp⟩
  | @merge t u v t' s s₁ s₂ s' _ hchoose hlive hcheck rest ih =>
    obtain ⟨hrest, later, hlater, hlater', hreplaced'⟩ := ih
    have hdecided : Decided t u := choose_from hchoose
    have hstate := (hdecided.ready hlive).state
    have hchosen := (look_consults s).trans ((choose_consults env t).result hchoose)
    obtain ⟨questions, hasked, hoffering, hreplaced⟩ := checkDuplicates_offers hstate hcheck
    obtain ⟨hkept, -⟩ := checkDuplicates_merged hstate hcheck
    have hmerged := (checkDuplicates_yields env hstate (hdecided.ready hlive).selected).ok hcheck
    -- The catalog that the merge left is the one that the round began with.
    have hcatalog : s₂.catalog = s.catalog := hkept.trans hchosen.catalog
    rw [hcatalog] at hlater'
    rw [hchosen.catalog] at hoffering
    refine ⟨hrest.trans hcatalog, questions ++ later, hchosen.offers.trans (hasked.trans hlater), ?_, ?_⟩
    · exact (hoffering.append (hreplaced v rfl) hmerged.1 hlater').of_stays hdecided.toStays
    · refine List.forall_mem_append.mpr ⟨fun q hq => ?_, hreplaced'⟩
      exact fun id hid => rest.stays.replaces (hreplaced v rfl q hq hid)

theorem Checked.offers {x : Except Setback Settlement} (h : Checked env t s x s')
    (hstate : t.state = .duplicateCheck) :
    ∃ questions, Offers s questions s' ∧ Offering s.catalog t questions := by
  have asked {y : Except Setback DuplicateOutcome} {u s' : Session}
      (hcheck : s.trying (checkDuplicates env t) = (y, u)) (hlast : Unoffered u s') :
      ∃ questions, Offers s questions s' ∧ Offering s.catalog t questions := by
    obtain ⟨questions, hasked, hoffering, -⟩ := checkDuplicates_offers hstate hcheck
    exact ⟨questions, by simpa using hasked.trans hlast, hoffering⟩
  cases h with
  | failed hcheck => exact asked hcheck (.of_log rfl)
  | finished hcheck => exact asked hcheck (.of_log rfl)
  | refused hcheck hcommit => exact asked hcheck ((commitTask_consults _).result hcommit).offers
  | committed hcheck hcommit => exact asked hcheck ((commitTask_consults _).result hcommit).offers

theorem LastRound.offers {x : Except Setback Settlement} (h : LastRound env t s x s') :
    ∃ questions, Offers s questions s' ∧ Offering s.catalog t questions := by
  have quiet {y : Except Setback Choice} {s' : Session} (hchoose : s.look.trying (choose env t) = (y, s')) :
      Consults s s' := (look_consults s).trans ((choose_consults env t).result hchoose)
  cases h with
  | stopped _ => exact ⟨[], (look_consults s).offers, .nil _ _⟩
  | undecided _ hchoose => exact ⟨[], (quiet hchoose).offers, .nil _ _⟩
  | split _ hchoose => exact ⟨[], (quiet hchoose).offers, .nil _ _⟩
  | left _ hchoose _ => exact ⟨[], (quiet hchoose).offers, .nil _ _⟩
  | checked _ hchoose hlive hchecked =>
    have hdecided : Decided t _ := choose_from hchoose
    obtain ⟨questions, hasked, hoffering⟩ := hchecked.offers (hdecided.ready hlive).state
    rw [(quiet hchoose).catalog] at hoffering
    exact ⟨questions, (quiet hchoose).offers.trans hasked, hoffering.of_stays hdecided.toStays⟩

theorem concluded_unoffered (s : Session) (x : Except Setback Settlement) :
    Unoffered s (s.concluded x).2 := by
  cases x with
  | error b => exact (fail_consults b s).offers
  | ok _ => exact .of_log rfl

/-- However the questions about a task are answered and whatever its searches find, settling it comes to
a round that does not end in a merge. It is asked about no entry twice, so no more often than there
are entries. -/
theorem settle_offers_apart (env : Environment) (t : Task) (s : Session) :
    (∃ u v x w, Rounds env t s u v ∧ LastRound env u v x w ∧ s.doing (settle env t) = w.concluded x) ∧
    ∃ questions, Offers s questions (s.doing (settle env t)).2 ∧ Offering s.catalog t questions ∧
      questions.length ≤ s.catalog.entries.length := by
  obtain ⟨u, v, x, w, hrounds, hlast, hrun⟩ := settle_rounds env t s
  refine ⟨⟨u, v, x, w, hrounds, hlast, hrun⟩, ?_⟩
  obtain ⟨hcatalog, questions, hasked, hoffering, hreplaced⟩ := hrounds.offers
  obtain ⟨later, hlater, hlater'⟩ := hlast.offers
  rw [hcatalog] at hlater'
  have hall := hoffering.append hreplaced hrounds.stays hlater'
  refine ⟨questions ++ later, ?_, hall, hall.length_le⟩
  rw [hrun]
  simpa using hasked.trans (hlater.trans (concluded_unoffered w x))

end Session
end MusicImport
