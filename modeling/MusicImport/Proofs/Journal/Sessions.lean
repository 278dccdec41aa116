import MusicImport.Proofs.Journal.Interrupted

/-! A journal over many sessions. Each session opens it, appends entries, and lets go of it; what was
appended in all of them is loaded, of each group the last entry. -/
namespace MusicImport

open JournalSnapshot (latest?)

variable {t t' u : FileTree} {path : FilePath} {es fs : List ResumeEntry}

/-- What a snapshot of entries says: of each group the last entry, and nothing of others. -/
structure JournalSnapshot.Tells (s : JournalSnapshot) (es : List ResumeEntry) : Prop where
  get : ∀ key, s.get? key = latest? es key
  distinct : s.Distinct
  entries : ∀ e, e ∈ s.entries ↔ latest? es e.key = some e
  settled : ∀ key, key ∈ s.settledKeys ↔
    ∃ e, latest? es key = some e ∧ (e.outcome = .done ∨ e.outcome = .skipped)
  failed : ∀ key e, latest? es key = some e → e.outcome = .failed →
    s.completedSteps key = e.completedSteps
  other : ∀ key, (∀ e, latest? es key = some e → e.outcome ≠ .failed) → s.completedSteps key = []

theorem Outcome.isSettled_iff {o : Outcome} : o.isSettled = true ↔ o = .done ∨ o = .skipped := by
  simp [Outcome.isSettled]

theorem JournalSnapshot.ofEntries_tells (es : List ResumeEntry) : (ofEntries es).Tells es := by
  have hdistinct := distinct_ofEntries es
  have hget := get?_ofEntries es
  refine ⟨hget, hdistinct, fun e => ?_, fun key => ?_, fun key e he hfailed => ?_, fun key hother => ?_⟩
  · rw [hdistinct.mem_iff, hget]
  · simp [hdistinct.mem_settledKeys, hget, Outcome.isSettled_iff]
  · simp [completedSteps, hget, he, hfailed]
  · unfold completedSteps
    rw [hget]
    cases he : latest? es key with
    | none => rfl
    | some e => exact if_neg (hother e he)

/-- A tree once the directory for a path is made. -/
def FileTree.Accommodates (t : FileTree) (path : FilePath) (u : FileTree) : Prop :=
  match path.parent? with
  | some parent => t.ensureDirectory parent = .ok u
  | none => u = t

/-- Nothing is at a path, nor will be when the directory for it is made. -/
structure FileTree.Absent (t : FileTree) (path : FilePath) : Prop where
  now : t.read path = .error .notFound
  later : ∀ u, t.Accommodates path u → u.read path = .error .notFound

/-- No directory is made for a bare name. -/
theorem FileTree.Absent.of_bare (hparent : path.parent? = some ⟨""⟩)
    (h : t.read path = .error .notFound) : t.Absent path := by
  constructor
  · exact h
  · intro u hu
    unfold FileTree.Accommodates at hu
    rw [hparent] at hu
    have hu : Except.ok t = Except.ok u := hu
    obtain rfl := Except.ok.inj hu
    exact h

theorem FileTree.Accommodates.wellFormed (h : t.Accommodates path u) (hw : t.WellFormed) :
    u.WellFormed := by
  unfold FileTree.Accommodates at h
  split at h
  · exact ensureDirectory_wellFormed hw h
  · rwa [h]

namespace JournalWriter

/-- What opening a journal does: its directory is made, and the complete lines of what is there are
written back. -/
theorem openAt_ok {w : JournalWriter} (h : openAt t path = (.ok w, t')) :
    ∃ (u : FileTree) (bytes : List UInt8), t.Accommodates path u ∧
      ((∃ content, u.read path = .ok content ∧ content.toList = bytes) ∨
        u.read path = .error .notFound ∧ bytes = []) ∧
      u.write path ⟨(completeLines bytes).toArray⟩ = .ok t' ∧
      w = ⟨path, (completeLines bytes).length⟩ := by
  unfold openAt at h
  split at h
  · simp at h
  next u hu =>
    have hmade : t.Accommodates path u := by
      unfold FileTree.Accommodates
      split at hu
      next parent hparent => simpa [hparent] using hu
      next hparent => simpa [hparent] using hu.symm
    dsimp only at h
    split at h
    next hcontent => simp at h
    next bytes hcontent =>
      split at h
      · simp at h
      next v hwrite =>
        obtain ⟨rfl, rfl⟩ : (⟨path, (completeLines bytes).length⟩ : JournalWriter) = w ∧ v = t' := by
          simpa using h
        split at hcontent
        next content hread =>
          exact ⟨u, bytes, hmade, .inl ⟨content, hread, Except.ok.inj hcontent⟩, hwrite, rfl⟩
        next hread =>
          exact ⟨u, bytes, hmade, .inr ⟨hread, (Except.ok.inj hcontent).symm⟩, hwrite, rfl⟩
        · cases hcontent

/-- A journal that holds the lines of entries, and nothing else. -/
structure Holds (t : FileTree) (path : FilePath) (es : List ResumeEntry) : Prop where
  wellFormed : t.WellFormed
  read : t.read path = .ok ⟨(es.flatMap ResumeEntry.bytes).toArray⟩

theorem openAt_wellFormed (hw : t.WellFormed) {w : JournalWriter} (h : openAt t path = (.ok w, t')) :
    t'.WellFormed := by
  obtain ⟨u, bytes, hmade, -, hwrite, -⟩ := openAt_ok h
  exact FileTree.write_wellFormed (hmade.wellFormed hw) hwrite

/-- A journal that was not there is empty once it is open. -/
theorem openAt_absent (hw : t.WellFormed) (habsent : t.Absent path) {w : JournalWriter}
    (h : openAt t path = (.ok w, t')) : w = ⟨path, 0⟩ ∧ Holds t' path [] := by
  obtain ⟨u, bytes, hmade, ⟨content, hread, -⟩ | ⟨-, rfl⟩, hwrite, rfl⟩ := openAt_ok h
  · rw [habsent.later u hmade] at hread
    cases hread
  · exact ⟨rfl, openAt_wellFormed hw h, FileTree.read_of_write_ok hwrite⟩

/-- A journal of complete lines is left as it is when it is opened. -/
theorem Holds.openAt (h : Holds t path es) : ∃ t',
    openAt t path = (.ok ⟨path, (es.flatMap ResumeEntry.bytes).length⟩, t') ∧ Holds t' path es := by
  have hlines : completeLines (es.flatMap ResumeEntry.bytes) = es.flatMap ResumeEntry.bytes := by
    have hall := completeLines_append (endsLine es) (List.not_mem_nil (a := 10))
    rwa [List.append_nil] at hall
  obtain ⟨t', hopen, hread⟩ := openAt_of_read h.wellFormed h.read
  rw [hlines] at hopen hread
  exact ⟨t', hopen, openAt_wellFormed h.wellFormed hopen, hread⟩

theorem append_wellFormed (hw : t.WellFormed) {w w' : JournalWriter} {e : ResumeEntry}
    (h : w.append t e = .ok (w', t')) : t'.WellFormed := by
  unfold append at h
  dsimp only at h
  split at h
  · cases h
    exact hw
  · split at h
    · cases h
    next hwrite =>
      cases h
      exact FileTree.write_wellFormed hw hwrite

theorem appendAll_wellFormed (hw : t.WellFormed) {w w' : JournalWriter} {fs : List ResumeEntry}
    (h : w.appendAll t fs = .ok (w', t')) : t'.WellFormed := by
  induction fs generalizing w t with
  | nil =>
    cases h
    exact hw
  | cons e rest ih =>
    unfold appendAll at h
    split at h
    next happend => exact ih (append_wellFormed hw happend) h
    · cases h

/-- Appending to an open journal of complete lines adds lines to it. -/
theorem Holds.appendAll (h : Holds t path es) (fs : List ResumeEntry) : ∃ w t',
    appendAll ⟨path, (es.flatMap ResumeEntry.bytes).length⟩ t fs = .ok (w, t') ∧
      Holds t' path (es ++ fs) := by
  obtain ⟨t', happend, hread⟩ := appendAll_at_end
    (w := ⟨path, (es.flatMap ResumeEntry.bytes).length⟩) h.read rfl fs
  rw [← List.flatMap_append] at hread
  exact ⟨_, t', happend, appendAll_wellFormed h.wellFormed happend, hread⟩

/-- One session after the other: each opens the journal and appends its entries. -/
def runSessions (path : FilePath) : FileTree → List (List ResumeEntry) → Except ImportFailure FileTree
  | t, [] => .ok t
  | t, es :: rest =>
    match openAt t path with
    | (.error e, _) => .error e
    | (.ok w, t) =>
      match w.appendAll t es with
      | .error e => .error e
      | .ok (_, t) => runSessions path t rest

theorem Holds.session (h : Holds t path es) (fs : List ResumeEntry) (rest : List (List ResumeEntry)) :
    ∃ t', runSessions path t (fs :: rest) = runSessions path t' rest ∧ Holds t' path (es ++ fs) := by
  obtain ⟨u, hopen, hu⟩ := h.openAt
  obtain ⟨w, t', happend, ht'⟩ := hu.appendAll fs
  refine ⟨t', ?_, ht'⟩
  simp only [runSessions, hopen, happend]

/-- No session drops or repeats a line of the ones before it. -/
theorem Holds.runSessions (h : Holds t path es) (sessions : List (List ResumeEntry)) :
    ∃ t', runSessions path t sessions = .ok t' ∧ Holds t' path (es ++ sessions.flatten) := by
  induction sessions generalizing t es with
  | nil => exact ⟨t, rfl, by simpa using h⟩
  | cons fs rest ih =>
    obtain ⟨u, hsession, hu⟩ := h.session fs rest
    obtain ⟨t', hrest, ht'⟩ := ih hu
    refine ⟨t', hsession.trans hrest, ?_⟩
    rwa [List.flatten_cons, ← List.append_assoc]

/-- The first session makes the journal. -/
theorem runSessions_absent (hw : t.WellFormed) (habsent : t.Absent path) {w : JournalWriter}
    (h : openAt t path = (.ok w, u)) (fs : List ResumeEntry) (rest : List (List ResumeEntry)) :
    ∃ t', runSessions path t (fs :: rest) = .ok t' ∧ Holds t' path (fs ++ rest.flatten) := by
  obtain ⟨rfl, hu⟩ := openAt_absent hw habsent h
  obtain ⟨w', v, happend, hv⟩ := hu.appendAll fs
  obtain ⟨t', hrest, ht'⟩ := hv.runSessions rest
  refine ⟨t', ?_, ht'⟩
  simp only [List.flatMap_nil, List.length_nil] at happend
  simp only [runSessions, h, happend, hrest]

end JournalWriter

namespace JournalSnapshot

open JournalWriter (openAt runSessions)

/-- Sessions on a journal that was not there succeed if the first of them can open it. Whatever keys,
outcomes, steps and times they appended, the journal is then loaded, with the last entry of each
group and with nothing else. -/
theorem load_sessions {sessions : List (List ResumeEntry)} (hw : t.WellFormed)
    (habsent : t.Absent path) (hvalid : ∀ es ∈ sessions, ∀ e ∈ es, e.timestamp.isValid) :
    ((∃ t', runSessions path t sessions = .ok t') ↔
      sessions = [] ∨ ∃ w, (openAt t path).1 = .ok w) ∧
    ∀ t', runSessions path t sessions = .ok t' →
      ∃ s, load t' path = .ok s ∧ s.Tells sessions.flatten := by
  cases sessions with
  | nil =>
    refine ⟨by simp [runSessions], fun t' h => ?_⟩
    obtain rfl := Except.ok.inj h
    have hload : load t path = .ok (ofEntries []) := by
      simp [load, FileTree.readText, habsent.now, Bind.bind, Except.bind, ofEntries]
    exact ⟨_, hload, ofEntries_tells []⟩
  | cons es rest =>
    rcases hopen : openAt t path with ⟨e | w, u⟩
    · simp [runSessions, hopen]
    · obtain ⟨t', hrun, ht'⟩ := JournalWriter.runSessions_absent hw habsent hopen es rest
      refine ⟨by simp [hrun], fun t₁ h => ?_⟩
      obtain rfl : t' = t₁ := by simpa [hrun] using h
      have hentries : ∀ e ∈ es ++ rest.flatten, e.timestamp.isValid := by
        intro e he
        obtain ⟨fs, hfs, he⟩ := List.mem_flatten.mp (show e ∈ (es :: rest).flatten from he)
        exact hvalid fs hfs e he
      exact ⟨_, load_lines hentries ht'.read, ofEntries_tells _⟩

/-- An import that fails over a group with quotes and a line end in its name, and one that ends it. -/
def twoSessions : List (List ResumeEntry) :=
  [[{ key := "a \"b\"\n", outcome := .failed, timestamp := .epoch
      completedSteps := [.transferFiles, .writeTags, .catalogCommit] },
    { key := "c", outcome := .aborted, timestamp := .epoch }],
   [{ key := "a \"b\"\n", outcome := .done, timestamp := { Timestamp.epoch with nano := 1500000 } }]]

theorem load_sessions_twice : ∃ t' s, runSessions ⟨"state/journal"⟩ {} twoSessions = .ok t' ∧
    load t' ⟨"state/journal"⟩ = .ok s ∧ s.Tells twoSessions.flatten := by
  have habsent : FileTree.Absent {} ⟨"state/journal"⟩ := by
    refine ⟨rfl, fun u hu => ?_⟩
    have hmade : FileTree.ensureDirectory {} ⟨"state"⟩ = .ok (FileTree.put {} ["state"] .directory) := by
      rfl
    have hu : FileTree.ensureDirectory {} ⟨"state"⟩ = .ok u := hu
    obtain rfl : FileTree.put {} ["state"] .directory = u := Except.ok.inj (hmade.symm.trans hu)
    rfl
  have hvalid : ∀ es ∈ twoSessions, ∀ e ∈ es, e.timestamp.isValid := by decide
  obtain ⟨hrun, hload⟩ := load_sessions (.of_nodes (by rfl) rfl) habsent hvalid
  obtain ⟨t', ht'⟩ := hrun.mpr (.inr ⟨⟨⟨"state/journal"⟩, 0⟩, by rfl⟩)
  obtain ⟨s, hs, htells⟩ := hload t' ht'
  exact ⟨t', s, ht', hs, htells⟩

end JournalSnapshot
end MusicImport
