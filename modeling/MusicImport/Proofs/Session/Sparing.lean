import MusicImport.Proofs.Session.Departing
import MusicImport.Proofs.Session.Shrinking

/-! What a task leaves behind that is not applied. Only a removal of old entries changes the catalog and
the files while a task is settled, and the task is applied after it, unless the import is aborted in
between. -/
namespace MusicImport

namespace Catalog

variable {c c' : Catalog} {id : EntryId} {removed : List FilePath}

theorem remove_entries (h : c.remove id = .ok (removed, c')) : c'.entries.length < c.entries.length := by
  rw [length_entries, length_entries]
  cases id with
  | album n =>
    obtain ⟨⟨row, hrow, hid⟩, rfl⟩ := remove_ok h
    have halbums : (c.albums.filter (·.id ≠ n)).length < c.albums.length :=
      List.length_filter_lt_length_iff_exists.mpr ⟨row, hrow, by simpa using hid⟩
    have hitems := List.length_filter_le (fun row : ItemRow => decide (row.album ≠ some n)) c.items
    dsimp only
    omega
  | item n =>
    obtain ⟨⟨row, hrow, hid⟩, rfl⟩ := remove_ok h
    have hitems : (c.items.filter (·.id ≠ n)).length < c.items.length :=
      List.length_filter_lt_length_iff_exists.mpr ⟨row, hrow, by simpa using hid⟩
    dsimp only
    omega

/-- Each removal takes an entry away. -/
theorem Removes.entries_le {ids : List EntryId} (h : c.Removes ids c') :
    c'.entries.length + ids.length ≤ c.entries.length := by
  induction h with
  | nil c => exact Nat.le_refl _
  | cons first _ ih =>
    have hfirst := remove_entries first
    rw [List.length_cons]
    omega

end Catalog

namespace Session

open Catalog

variable {s s' : Session} {env : Environment} {t t' : Task}

/-- Catalog, files and tags are as they were. -/
structure Keeps (s s' : Session) : Prop where
  catalog : s'.catalog = s.catalog
  files : s'.files = s.files
  tags : s'.tags = s.tags

theorem Keeps.refl (s : Session) : Keeps s s := ⟨rfl, rfl, rfl⟩

theorem Keeps.trans {u : Session} (h : Keeps s u) (h' : Keeps u s') : Keeps s s' :=
  ⟨h'.catalog.trans h.catalog, h'.files.trans h.files, h'.tags.trans h.tags⟩

theorem Consults.keeps (h : Consults s s') : Keeps s s' := ⟨h.catalog, h.files, h.tags⟩

theorem askDuplicate_keeps (env : Environment) (t : Task) (existing : List CatalogEntry) :
    Keeps s (s.doing (askDuplicate env t existing)).2 := by
  unfold askDuplicate
  simp only [doing_bind, doing_get]
  split
  · exact ⟨rfl, rfl, rfl⟩
  · exact ⟨rfl, rfl, rfl⟩

/-- Entries that a task duplicates are found, are to be removed, and are gone with their files. -/
structure Removal (env : Environment) (t : Task) (s asked answered s' : Session) : Prop where
  kept : Keeps s asked
  live : asked.aborted = false
  found : rivals s.catalog t ≠ []
  answer : asked.doing (askDuplicate env t (rivals s.catalog t)) = (.removeOld, answered)
  removed : answered.trying (removeOld env t (rivals s.catalog t)) = (.ok (), s')

theorem Removal.catalog_ne {asked answered : Session} (h : Removal env t s asked answered s') :
    s'.catalog ≠ s.catalog := by
  obtain ⟨hremoves, -⟩ := removeOld_ok h.removed
  have hasked : answered.catalog = s.catalog := by
    have hkeeps := askDuplicate_keeps (s := asked) env t (rivals s.catalog t)
    rw [h.answer] at hkeeps
    exact hkeeps.catalog.trans h.kept.catalog
  have hsome := List.length_pos_iff.mpr h.found
  intro hsame
  have hless := hremoves.entries_le
  rw [hasked, hsame, List.length_map] at hless
  omega

/-- No other answer changes anything, and no removal that fails. -/
theorem carryOut_keeps {existing : List CatalogEntry} {answer : DuplicateDecision}
    {x : Except Setback DuplicateOutcome} (h : s.trying (carryOut env t existing answer) = (x, s')) :
    Keeps s s' ∨ answer = .removeOld ∧ s.trying (removeOld env t existing) = (.ok (), s') ∧
      x = .ok (.proceed t) := by
  have finishes (next : TaskState) :
      Tries Consults (do return DuplicateOutcome.finished (← advance t next)) :=
    consults_steady.tries_bind (advance_consults t next) fun _ => consults_steady.tries_pure _
  cases answer with
  | skipNew => exact .inl ((finishes .skipped).result h).keeps
  | keepBoth =>
    cases h
    exact .inl (.refl s)
  | removeOld =>
    unfold carryOut at h
    rw [trying_bind] at h
    rcases hremove : s.trying (removeOld env t existing) with ⟨e | _, u⟩
    · rw [show s.trying (onBehalf t (removeOld env t existing)) = (.error ⟨t, .service e⟩, u) from
        trying_adapt_error.mpr ⟨e, hremove, rfl⟩] at h
      cases h
      exact .inl (removeOld_error hremove).keeps
    · rw [show s.trying (onBehalf t (removeOld env t existing)) = (.ok (), u) from
        trying_adapt_ok.mpr hremove] at h
      cases h
      exact .inr ⟨rfl, rfl, rfl⟩
  | merge =>
    simp only [carryOut] at h
    split at h
    · have hmerges : Tries Consults (do return DuplicateOutcome.merged (← merge env t existing)) :=
        consults_steady.tries_bind (merge_consults env t existing) fun _ => consults_steady.tries_pure _
      exact .inl (hmerges.result h).keeps
    · cases h
      exact .inl (.refl s)

theorem checkDuplicates_keeps {x : Except Setback DuplicateOutcome}
    (h : s.trying (checkDuplicates env t) = (x, s')) :
    Keeps s s' ∨ (∃ asked answered, Removal env t s asked answered s') ∧ x = .ok (.proceed t) := by
  have hfinds := findDuplicates_consults env t.identity
  cases checkDuplicates_check h with
  | spared => exact .inl (.refl s)
  | unanswered hfind => exact .inl (hfinds.result hfind).keeps
  | unique hfind => exact .inl (hfinds.result hfind).keeps
  | stopped hfind haborted hadvance =>
    have hadvances : Tries Consults (do return DuplicateOutcome.finished (← advance t .aborted)) :=
      consults_steady.tries_bind (advance_consults t _) fun _ => consults_steady.tries_pure _
    have hfound := (hfinds.result hfind).trans (look_consults _)
    exact .inl (hfound.trans (hadvances.result hadvance)).keeps
  | @asked _ u v _ answer _ hfind hrivals hlive hask hcarry =>
    have hfound := ((hfinds.result hfind).trans (look_consults u)).keeps
    have hasked := askDuplicate_keeps (s := u.look) env t (rivals s.catalog t)
    rw [hask] at hasked
    obtain hkeeps | ⟨rfl, hremove, hx⟩ := carryOut_keeps hcarry
    · exact .inl ((hfound.trans hasked).trans hkeeps)
    · exact .inr ⟨⟨u.look, v, hfound, hlive, hrivals, hask, hremove⟩, hx⟩

theorem choose_keeps {c : Choice} (h : s.look.trying (choose env t) = (.ok c, s')) : Keeps s s' :=
  ((look_consults s).trans ((choose_consults env t).result h)).keeps

theorem Begins.keeps (h : Begins env t s t' s') : Keeps s s' := by
  cases h with
  | searched hsearch => exact ((look_consults s).trans ((search_consults env t none).result hsearch)).keeps
  | kept _ => exact (look_consults s).keeps

/-- A merge takes nothing away. -/
theorem Rounds.keeps {t t' : Task} {s s' : Session} (h : Rounds env t s t' s') : Keeps s s' := by
  induction h with
  | refl => exact .refl _
  | merge _ hchoose _ hcheck _ ih =>
    obtain hkeeps | ⟨-, hproceed⟩ := checkDuplicates_keeps hcheck
    · exact ((choose_keeps hchoose).trans hkeeps).trans ih
    · cases hproceed

/-- A task that was not applied although entries were removed for it: the import was aborted only
afterwards, or the task came with an outcome that was final already. -/
structure Overtaken (env : Environment) (d : Departure) : Prop where
  removal : ∃ u v asked answered removed, d.task.Stays u ∧ Keeps d.before v ∧
    Removal env u v asked answered removed ∧ Keeps removed d.after
  late : d.after.aborted = true ∨ d.task.chosen.isSome

theorem Overtaken.not_keeps {d : Departure} (h : Overtaken env d) : ¬ Keeps d.before d.after := by
  obtain ⟨u, v, asked, answered, removed, -, hbefore, hremoval, hafter⟩ := h.removal
  intro hkeeps
  apply hremoval.catalog_ne
  rw [hbefore.catalog, ← hkeeps.catalog, hafter.catalog]

/-- What follows the last choice changes something only by a removal, and the task is then applied, or
overtaken. -/
theorem Checked.keeps {u : Task} {x : Except Setback Settlement} (h : Checked env u s x s')
    (hready : Ready t u) (hleft : ∀ r, x = .ok (.resolved r) → r.task.state ≠ .applying) :
    Keeps s s' ∨ (∃ asked answered removed, Removal env u s asked answered removed ∧ Keeps removed s') ∧
      (s'.aborted = true ∨ u.chosen.isSome) := by
  cases h with
  | failed hcheck =>
    obtain hkeeps | ⟨-, hproceed⟩ := checkDuplicates_keeps hcheck
    · exact .inl hkeeps
    · cases hproceed
  | finished hcheck =>
    obtain hkeeps | ⟨-, hproceed⟩ := checkDuplicates_keeps hcheck
    · exact .inl hkeeps
    · cases hproceed
  | refused hcheck hcommit =>
    have hcommits := ((commitTask_consults _).result hcommit).keeps
    obtain hkeeps | ⟨⟨asked, answered, hremoval⟩, hproceed⟩ := checkDuplicates_keeps hcheck
    · exact .inl (hkeeps.trans hcommits)
    · cases hproceed
      refine .inr ⟨⟨asked, answered, _, hremoval, hcommits⟩, .inr ?_⟩
      exact ((commitTask_yields env hready.state hready.selected).error hcommit).1
  | @committed _ w _ _ hcheck hcommit =>
    have hcommits := ((commitTask_consults _).result hcommit).keeps
    obtain hkeeps | ⟨⟨asked, answered, hremoval⟩, -⟩ := checkDuplicates_keeps hcheck
    · exact .inl (hkeeps.trans hcommits)
    · obtain ⟨-, ⟨haborted, -⟩ | ⟨-, -, choice, -, rfl⟩⟩ := commitTask_ok hcommit
      · exact .inr ⟨⟨asked, answered, _, hremoval, hcommits⟩, .inl haborted⟩
      · exact absurd rfl (hleft _ rfl)

/-- A failure is told without changing anything. -/
theorem concluded_consults (s : Session) (x : Except Setback Settlement) :
    Consults s (s.concluded x).2 := by
  cases x with
  | error b => exact fail_consults b s
  | ok settlement => exact .refl s

theorem keeps_or_overtaken {d : Departure} (hd : d ∈ departures env t s)
    (hleft : d.result.task.state ≠ .applying) : Keeps d.before d.after ∨ Overtaken env d := by
  obtain ⟨t₁, s₁, u, v, x, w, hbegins, hrounds, hlast, hrun⟩ :=
    settleFresh_rounds env d.task d.before
  rw [settled_of_mem_departures hd] at hrun
  have hstays := hbegins.stays.trans hrounds.stays
  have hkeeps := hbegins.keeps.trans hrounds.keeps
  have hconcludes := concluded_consults w x
  rw [← hrun] at hconcludes
  have hafter : Keeps w d.after := hconcludes.keeps
  have hleft' : ∀ r, x = .ok (.resolved r) → r.task.state ≠ .applying := by
    rintro r rfl
    have hresult : d.result = r := Settlement.resolved.inj (Prod.mk.inj hrun).1
    rwa [← hresult]
  cases hlast with
  | stopped _ => exact .inl ((hkeeps.trans (look_consults v).keeps).trans hafter)
  | undecided _ hchoose =>
    have hchosen := ((look_consults v).trans ((choose_consults env u).result hchoose)).keeps
    exact .inl ((hkeeps.trans hchosen).trans hafter)
  | split _ hchoose => exact .inl ((hkeeps.trans (choose_keeps hchoose)).trans hafter)
  | left _ hchoose _ => exact .inl ((hkeeps.trans (choose_keeps hchoose)).trans hafter)
  | @checked u' v' _ _ _ hchoose hlive hchecked =>
    have hdecided : Decided u u' := choose_from hchoose
    have hstays' := hstays.trans hdecided.toStays
    have hchosen := hkeeps.trans (choose_keeps hchoose)
    obtain hkept | ⟨⟨asked, answered, removed, hremoval, hsame⟩, hlate⟩ :=
      hchecked.keeps (hdecided.ready hlive) hleft'
    · exact .inl ((hchosen.trans hkept).trans hafter)
    · refine .inr ⟨⟨u', v', asked, answered, removed, hstays', hchosen, hremoval, hsame.trans hafter⟩, ?_⟩
      refine hlate.imp hconcludes.aborted fun hsome => ?_
      rwa [hstays'.chosen] at hsome

/-- A group that is split is left as it was until its parts are settled. -/
theorem settleFresh_split_keeps {children : List Task} {u : Session}
    (h : s.doing (settleFresh env t) = (.split children, u)) : Keeps s u := by
  obtain ⟨t₁, s₁, t₂, s₂, hbegins, hrounds, hchoose⟩ := settleFresh_split h
  exact (hbegins.keeps.trans hrounds.keeps).trans (choose_keeps hchoose)

theorem departuresOf_keeps {children : List Task}
    (h : ∀ d ∈ departuresOf env children s, Keeps d.before d.after) :
    Keeps s (s.doing (resolveSingles env children)).2 := by
  induction children generalizing s with
  | nil => exact .refl s
  | cons t rest ih =>
    unfold departuresOf at h
    unfold resolveSingles
    rw [doing_bind]
    rcases hr : s.doing (settleFresh env t) with ⟨r | parts, u⟩ <;> rw [hr] at h
    · have hfirst : Keeps s u := h ⟨t, s, r, u⟩ (.head _)
      exact hfirst.trans (ih fun d hd => h d (.tail _ hd))
    · exact (settleFresh_split_keeps hr).trans (ih h)

/-- A task that leaves without being applied has left catalog, files and tags as they were, unless it was
overtaken after a removal. If no task of a group is applied or overtaken, settling the group has
changed nothing. -/
theorem keeps_iff_not_overtaken (env : Environment) (t : Task) (s : Session) :
    (∀ d ∈ departures env t s, d.result.task.state ≠ .applying →
      (Keeps d.before d.after ↔ ¬ Overtaken env d)) ∧
    ((∀ d ∈ departures env t s, d.result.task.state ≠ .applying ∧ ¬ Overtaken env d) →
      Keeps s (s.doing (resolve env t)).2) := by
  constructor
  · intro d hd hleft
    constructor
    · intro hkeeps hovertaken
      exact hovertaken.not_keeps hkeeps
    · intro hnot
      exact (keeps_or_overtaken hd hleft).resolve_right hnot
  · intro hall
    have hkeeps : ∀ d ∈ departures env t s, Keeps d.before d.after := by
      intro d hd
      obtain ⟨hleft, hnot⟩ := hall d hd
      exact (keeps_or_overtaken hd hleft).resolve_right hnot
    unfold departures at hkeeps
    unfold resolve
    rw [doing_bind]
    rcases hr : s.doing (settleFresh env t) with ⟨r | children, u⟩ <;> rw [hr] at hkeeps
    · exact hkeeps ⟨t, s, r, u⟩ (.head _)
    · exact (settleFresh_split_keeps hr).trans (departuresOf_keeps hkeeps)

/-- An album of which the library has another copy. -/
def copyOfX : Task :=
  { key := "in", isAlbum := true, state := .grouped
    tracks := [{ path := ⟨"in/a.flac"⟩, title := some "A", album := some "X" }] }

def libraryWithX : Session :=
  { files := { nodes := [(["in"], .directory), (["in", "a.flac"], .file "one".toUTF8),
      (["lib"], .directory), (["lib", "A.flac"], .file "old".toUTF8)] }
    catalog := (({} : Catalog).addAlbum { albumArtist := "", album := "X" }
      [{ path := ⟨"lib/A.flac"⟩, title := some "A", album := some "X" }]).2
    decisions := [.useAsIs]
    duplicates := [.removeOld] }

/-- Whoever is asked about duplicates aborts the import while answering. -/
def abortingAnswers : Environment :=
  { config := {}, layout := .template ⟨"one", true⟩, raises := [⟨.resolveDuplicate, 1⟩] }

theorem keeps_iff_not_overtaken_copy :
    ∃ d ∈ departures abortingAnswers copyOfX libraryWithX,
      d.result.task.state = .aborted ∧ Overtaken abortingAnswers d := by
  have hany : (departures abortingAnswers copyOfX libraryWithX).any fun d =>
      d.result.task.state = .aborted && d.after.catalog ≠ d.before.catalog := by decide +kernel
  obtain ⟨d, hd, hchecks⟩ := List.any_eq_true.mp hany
  obtain ⟨hstate, hchanged⟩ : d.result.task.state = .aborted ∧ d.after.catalog ≠ d.before.catalog := by
    simpa using hchecks
  have hiff := (keeps_iff_not_overtaken abortingAnswers copyOfX libraryWithX).1 d hd (by simp [hstate])
  refine ⟨d, hd, hstate, ?_⟩
  by_contra hnot
  exact hchanged (hiff.mpr hnot).catalog

/-- The old copy is gone from the catalog and from the disk, and the new one is not imported. -/
theorem aborted_after_removal :
    ((libraryWithX.doing (resolve abortingAnswers copyOfX)).1.map (·.task.state) = [.aborted]) ∧
      libraryWithX.catalog.entries = [.album 1, .item 1] ∧
      (libraryWithX.files.nodeAt? ["lib", "A.flac"]).isSome ∧
      (libraryWithX.doing (resolve abortingAnswers copyOfX)).2.catalog.entries = [] ∧
      ((libraryWithX.doing (resolve abortingAnswers copyOfX)).2.files.nodeAt? ["lib", "A.flac"]).isNone := by
  decide +kernel

end Session
end MusicImport
