import MusicImport.Proofs.Session.Consulting
import MusicImport.Proofs.Tags.Writing

/-! The stages of applying a task: what each does to the files, the tags and the catalog, where it
succeeds and where it fails. -/
namespace MusicImport
namespace Session

open FileTree

variable {s s' u : Session} {env : Environment} {t : Task} {xs : List Transfer}

/-- What is claimed is found out by asking the catalog. -/
theorem transferClaims_consults (env : Environment) (t : Task) (dests : List FilePath) :
    Tries Consults (transferClaims env t dests) := by
  unfold transferClaims
  split
  · exact consults_steady.tries_pure _
  · exact (claimedPaths_consults env t dests).adapt _

/-- After the claims are known, a transfer is a run of placements. -/
private theorem transfer_place {records : List Track} {r : Except ImportFailure (List Transfer)}
    (h : s.trying (transfer env t records) = (r, s')) :
    (Consults s s' ∧ ∃ e, r = .error e) ∨ ∃ claimed u result files,
      s.trying (transferClaims env t (records.map (destination env))) = (.ok claimed, u) ∧
      s.files.placeAll env.config.fileStrategy env.config.verifyTransfers [] claimed
        (destinations env records) = (result, files) ∧
      s' = { u with files } ∧ r = result.mapError fun (source, e) =>
        .apply t.key .transferFiles (some source) e := by
  unfold transfer at h
  rw [trying_bind] at h
  rcases hclaims : s.trying (transferClaims env t (records.map (destination env))) with
    ⟨e | claimed, u⟩
  · have hu := (transferClaims_consults env t _).result hclaims
    simp only [hclaims, Prod.mk.injEq] at h
    obtain ⟨rfl, rfl⟩ := h
    exact .inl ⟨hu, e, rfl⟩
  · have hu := (transferClaims_consults env t _).result hclaims
    simp only [hclaims, trying_bind, trying_get, hu.files] at h
    rcases hplace : s.files.placeAll env.config.fileStrategy env.config.verifyTransfers [] claimed
      (destinations env records) with ⟨result, files⟩
    simp only [hplace, trying_set] at h
    refine .inr ⟨claimed, u, result, files, rfl, hplace, ?_⟩
    cases result <;> simp only [trying_pure, trying_throw, Prod.mk.injEq] at h <;>
      exact ⟨h.2.symm, h.1.symm⟩

/-- Files are placed under the claims that were found out. -/
theorem transfer_claimed {records : List Track}
    (h : s.trying (transfer env t records) = (.ok xs, s')) : ∃ claimed u,
      s.trying (transferClaims env t (records.map (destination env))) = (.ok claimed, u) ∧
      PlacedAll env.config.fileStrategy s.files claimed (destinations env records) xs s'.files ∧
      s' = { u with files := s'.files } := by
  obtain ⟨-, e, he⟩ | ⟨claimed, u, result, files, hclaims, hplace, rfl, hr⟩ := transfer_place h
  · cases he
  · cases result with
    | error f => cases hr
    | ok ys =>
      cases hr
      obtain ⟨zs, rfl, hplaced⟩ := placeAll_ok hplace
      exact ⟨claimed, u, hclaims, hplaced, rfl⟩

theorem transfer_ok {records : List Track}
    (h : s.trying (transfer env t records) = (.ok xs, s')) :
    Works s s' ∧ s'.tags = s.tags ∧ ∃ claimed,
      PlacedAll env.config.fileStrategy s.files claimed (destinations env records) xs s'.files := by
  obtain ⟨claimed, u, hclaims, hplaced, hs'⟩ := transfer_claimed h
  have hu := (transferClaims_consults env t _).result hclaims
  rw [hs']
  exact ⟨⟨hu.catalog, hu.aborted, hu.log⟩, hu.tags, claimed, hplaced⟩

/-- Files that are referenced are told where they are. -/
theorem transfer_reference {records : List Track} (hreference : env.config.fileStrategy = .reference)
    (h : s.trying (transfer env t records) = (.ok xs, s')) :
    xs.map (·.dest) = (destinations env records).map (·.1) := by
  obtain ⟨-, e, he⟩ | ⟨claimed, u, result, files, -, hplace, -, hr⟩ := transfer_place h
  · cases he
  · cases result with
    | error f => cases hr
    | ok ys =>
      cases hr
      rw [hreference] at hplace
      rw [placeAll_reference hplace, List.nil_append, List.map_map]
      rfl

theorem transfer_error {records : List Track} {e : ImportFailure}
    (h : s.trying (transfer env t records) = (.error e, s')) :
    Works s s' ∧ (s'.files = s.files ∨ ∃ claimed f,
      s.files.placeAll env.config.fileStrategy env.config.verifyTransfers [] claimed
        (destinations env records) = (.error f, s'.files) ∧
      e = .apply t.key .transferFiles (some f.1) f.2) := by
  obtain ⟨hu, -⟩ | ⟨claimed, u, result, files, hclaims, hplace, rfl, hr⟩ := transfer_place h
  · exact ⟨hu.toWorks, .inl hu.files⟩
  · have hu := (transferClaims_consults env t _).result hclaims
    cases result with
    | ok ys => cases hr
    | error f => exact ⟨⟨hu.catalog, hu.aborted, hu.log⟩, .inr ⟨claimed, f, hplace, Except.error.inj hr⟩⟩

variable {path : FilePath} {f : TagFields}

theorem writeTags_ok (h : s.trying (writeTags env path f) = (.ok (), s')) :
    Works s s' ∧ s.tags.write s.files path f = .ok (s'.tags, s'.files) := by
  unfold writeTags at h
  obtain ⟨_, u, hu, h⟩ := trying_bind_ok.mp h
  obtain ⟨_, v, hv, h⟩ := trying_bind_ok.mp h
  have hv := ((record_consults rfl).lift.result hu).trans ((attempt_consults env .write).result hv)
  obtain ⟨_, w, hget, h⟩ := trying_bind_ok.mp h
  simp only [trying_get, Prod.mk.injEq, Except.ok.injEq] at hget
  obtain ⟨rfl, rfl⟩ := hget
  rw [← hv.tags, ← hv.files]
  split at h
  next tags files hwrite =>
    simp only [trying_set, Prod.mk.injEq, true_and] at h
    subst h
    exact ⟨⟨hv.catalog, hv.aborted, hv.log⟩, hwrite⟩
  · simp [trying_bind] at h

/-- A write that fails leaves the file as it was, or what the codec leaves of it. -/
theorem writeTags_error {e : ServiceFailure} (h : s.trying (writeTags env path f) = (.error e, s')) :
    Works s s' ∧ (s'.files = s.files ∨ s'.files = s.tags.spoil s.files path f) := by
  have consulted {u : Session} (hu : Consults s u) :
      Works s u ∧ (u.files = s.files ∨ u.files = s.tags.spoil s.files path f) :=
    ⟨hu.toWorks, .inl hu.files⟩
  unfold writeTags at h
  obtain h | ⟨_, u, hu, h⟩ := trying_bind_error.mp h
  · exact consulted ((record_consults rfl).lift.result h)
  have hu := (record_consults rfl).lift.result hu
  obtain h | ⟨_, v, hv, h⟩ := trying_bind_error.mp h
  · exact consulted (hu.trans ((attempt_consults env .write).result h))
  have hv := hu.trans ((attempt_consults env .write).result hv)
  obtain h | ⟨_, w, hget, h⟩ := trying_bind_error.mp h
  · simp at h
  simp only [trying_get, Prod.mk.injEq, Except.ok.injEq] at hget
  obtain ⟨rfl, rfl⟩ := hget
  split at h
  · simp at h
  · simp only [trying_bind, trying_set, trying_throw, Prod.mk.injEq] at h
    obtain ⟨-, rfl⟩ := h
    rw [← hv.tags, ← hv.files]
    exact ⟨⟨hv.catalog, hv.aborted, hv.log⟩, .inr rfl⟩

/-- Tag writes one after the other, for those of the files that receive values. -/
inductive WritesAll : TagStore → FileTree → List (Transfer × TagFields) → TagStore → FileTree → Prop
  | nil (s : TagStore) (t : FileTree) : WritesAll s t [] s t
  | skip {s s' : TagStore} {t t' : FileTree} {x : Transfer} {f : TagFields}
      {rest : List (Transfer × TagFields)} (h : f.isEmpty = true) (then' : WritesAll s t rest s' t') :
      WritesAll s t ((x, f) :: rest) s' t'
  | write {s v s' : TagStore} {t u t' : FileTree} {x : Transfer} {f : TagFields}
      {rest : List (Transfer × TagFields)} (h : f.isEmpty = false)
      (first : s.write t x.dest f = .ok (v, u)) (then' : WritesAll v u rest s' t') :
      WritesAll s t ((x, f) :: rest) s' t'

/-- Tag writes as the files see them. -/
inductive Retags (g : FilePath → TagFields → ByteArray → ByteArray) :
    FileTree → List (Transfer × TagFields) → FileTree → Prop
  | nil (t : FileTree) : Retags g t [] t
  | skip {t t' : FileTree} {x : Transfer} {f : TagFields} {rest : List (Transfer × TagFields)}
      (h : f.isEmpty = true) (then' : Retags g t rest t') : Retags g t ((x, f) :: rest) t'
  | write {t u t' : FileTree} {x : Transfer} {f : TagFields}
      {rest : List (Transfer × TagFields)} (h : f.isEmpty = false)
      (first : Rewrites t u x.dest (g x.dest f)) (then' : Retags g u rest t') :
      Retags g t ((x, f) :: rest) t'

namespace Retags

variable {g : FilePath → TagFields → ByteArray → ByteArray} {a b : FileTree} {q : Place}
  {l : List (Transfer × TagFields)}

theorem sameShape (h : Retags g a l b) : SameShape a b := by
  induction h with
  | nil t => exact .refl t
  | skip _ _ ih => exact ih
  | write _ first _ ih => exact first.toSameShape.trans ih

/-- The content that a file has after values were written into it, if there are any. -/
def written (g : TagFields → ByteArray → ByteArray) (f : TagFields) (c : ByteArray) : ByteArray :=
  if f.isEmpty then c else g f c

/-- The content that a file at a place has after values were written into the files that paths lead
to. -/
def rewritten (g : FilePath → TagFields → ByteArray → ByteArray) (t : FileTree) (q : Place) :
    List (Transfer × TagFields) → ByteArray → ByteArray
  | [], c => c
  | (x, f) :: rest, c =>
    rewritten g t q rest (if (t.locate x.dest).toOption = some q then written (g x.dest) f c else c)

theorem rewritten_congr (h : SameShape a b) (l : List (Transfer × TagFields)) :
    rewritten g b q l = rewritten g a q l := by
  have hl (path : FilePath) : (b.locate path).toOption = (a.locate path).toOption :=
    Option.ext fun p => by simp only [toOption_eq_some, h.locate_iff]
  funext c
  induction l generalizing c with
  | nil => rfl
  | cons entry rest ih => simp only [rewritten, hl, ih]

theorem rewritten_append (l r : List (Transfer × TagFields)) (c : ByteArray) :
    rewritten g a q (l ++ r) c = rewritten g a q r (rewritten g a q l c) := by
  induction l generalizing c with
  | nil => rfl
  | cons entry l ih => exact ih _

/-- A file that no write leads to keeps its content. -/
theorem rewritten_of_not (h : ∀ x f, (x, f) ∈ l → a.locate x.dest ≠ .ok q) (c : ByteArray) :
    rewritten g a q l c = c := by
  induction l generalizing c with
  | nil => rfl
  | cons entry rest ih =>
    obtain ⟨x, f⟩ := entry
    have hx := h x f (.head _)
    rw [rewritten, if_neg (by rwa [toOption_eq_some])]
    exact ih (fun y d hy => h y d (.tail _ hy)) c

/-- Each file has the content that the writes into it give, in their order. -/
theorem content (h : Retags g a l b) (q : Place) :
    b.contentAt? q = (a.contentAt? q).map (rewritten g a q l) := by
  induction h with
  | nil t => exact Option.map_id'.symm
  | @skip t t' x f rest hf _ ih =>
    have hskip (c : ByteArray) : rewritten g t q ((x, f) :: rest) c = rewritten g t q rest c := by
      simp [rewritten, written, hf]
    rw [ih, funext hskip]
  | @write t u t' x f rest hf first _ ih =>
    rw [ih, rewritten_congr first.toSameShape]
    by_cases hx : t.locate x.dest = .ok q
    · have hstep (c : ByteArray) :
          rewritten g t q ((x, f) :: rest) c = rewritten g t q rest (g x.dest f c) := by
        simp [rewritten, written, hf, hx, toOption_eq_some]
      rw [first.here q hx, Option.map_map, funext hstep]
      rfl
    · have hstep (c : ByteArray) :
          rewritten g t q ((x, f) :: rest) c = rewritten g t q rest c := by
        rw [rewritten, if_neg (by rwa [toOption_eq_some])]
      rw [first.elsewhere q hx, funext hstep]

end Retags

theorem WritesAll.retags {s s' : TagStore} {t t' : FileTree} {l : List (Transfer × TagFields)}
    (h : WritesAll s t l s' t') : Retags s.retagged t l t' := by
  induction h with
  | nil s t => exact .nil t
  | skip hf _ ih => exact .skip hf ih
  | write hf first _ ih =>
    obtain ⟨htags, -, hfirst⟩ := TagStore.write_rewrites first
    rw [htags] at ih
    exact .write hf hfirst ih

theorem writeAllTags_ok {l : List (Transfer × TagFields)}
    (h : s.trying (writeAllTags env t l) = (.ok (), s')) :
    Works s s' ∧ WritesAll s.tags s.files l s'.tags s'.files := by
  induction l generalizing s with
  | nil =>
    simp only [writeAllTags, trying_pure, Prod.mk.injEq, true_and] at h
    subst h
    exact ⟨.refl s, .nil _ _⟩
  | cons entry rest ih =>
    obtain ⟨x, f⟩ := entry
    unfold writeAllTags at h
    cases hf : f.isEmpty with
    | true =>
      simp only [hf, Bool.not_true, Bool.false_eq_true, if_false] at h
      obtain ⟨hw, hr⟩ := ih (by simpa [trying_bind] using h)
      exact ⟨hw, .skip hf hr⟩
    | false =>
      simp only [hf, Bool.not_false, if_true] at h
      obtain ⟨_, u, hu, h⟩ := trying_bind_ok.mp h
      obtain ⟨hw, hfirst⟩ := writeTags_ok (trying_adapt_ok.mp hu)
      obtain ⟨hw', hr⟩ := ih h
      exact ⟨hw.trans hw', .write hf hfirst hr⟩

/-- The files after some of the tag writes, the last of which may have failed. -/
structure Interrupted (s : TagStore) (t : FileTree) (l done failed : List (Transfer × TagFields))
    (t' : FileTree) : Prop where
  within : done ++ failed <+: l
  once : failed.length ≤ 1
  left : ∃ u, Retags s.retagged t done u ∧ Retags s.spoiled u failed t'

/-- Where a write fails, those before it are done, and it may have left another content itself. -/
theorem writeAllTags_error {l : List (Transfer × TagFields)} {e : ImportFailure}
    (h : s.trying (writeAllTags env t l) = (.error e, s')) :
    Works s s' ∧ (∃ path f, e = .apply t.key .writeTags path f) ∧
      ∃ done failed, Interrupted s.tags s.files l done failed s'.files := by
  induction l generalizing s with
  | nil => simp [writeAllTags] at h
  | cons entry rest ih =>
    obtain ⟨x, f⟩ := entry
    unfold writeAllTags at h
    cases hf : f.isEmpty with
    | true =>
      simp only [hf, Bool.not_true, Bool.false_eq_true, if_false] at h
      obtain ⟨hw, he, done, failed, hdone, honce, v, hr, hfailed⟩ := ih (by simpa [trying_bind] using h)
      exact ⟨hw, he, (x, f) :: done, failed, List.cons_prefix_cons.mpr ⟨rfl, hdone⟩, honce, v, .skip hf hr,
        hfailed⟩
    | false =>
      simp only [hf, Bool.not_false, if_true] at h
      obtain h | ⟨_, u, hu, h⟩ := trying_bind_error.mp h
      · obtain ⟨_, hwrite, rfl⟩ := trying_adapt_error.mp h
        obtain ⟨hw, hfiles | hfiles⟩ := writeTags_error hwrite
        · rw [hfiles]
          exact ⟨hw, ⟨_, _, rfl⟩, [], [], List.nil_prefix, Nat.zero_le 1, _, .nil _, .nil _⟩
        · rw [hfiles]
          have hspoiled : Retags s.tags.spoiled s.files [(x, f)] (s.tags.spoil s.files x.dest f) :=
            .write hf (rewrite_rewrites _ _ _) (.nil _)
          exact ⟨hw, ⟨_, _, rfl⟩, [], [(x, f)], List.prefix_append [(x, f)] rest, Nat.le_refl 1, _, .nil _,
            hspoiled⟩
      · obtain ⟨hw, hwrite⟩ := writeTags_ok (trying_adapt_ok.mp hu)
        obtain ⟨htags, hspoiled, hfirst⟩ := TagStore.write_rewrites hwrite
        obtain ⟨hw', he, done, failed, hdone, honce, v, hr, hfailed⟩ := ih h
        rw [htags] at hr
        rw [hspoiled] at hfailed
        exact ⟨hw.trans hw', he, (x, f) :: done, failed, List.cons_prefix_cons.mpr ⟨rfl, hdone⟩, honce, v,
          .write hf hfirst hr, hfailed⟩

section Apply

variable {choice : Chosen} {previous completed : List ApplyStep} {paths : List FilePath}
  {e : ApplyFailure}

theorem takeBack_ok {α : Type} {x : Attempt ImportFailure α} {a : α}
    (h : s.trying (takeBack env xs completed x) = (.ok a, s')) : s.trying x = (.ok a, s') := by
  unfold takeBack at h
  rw [trying_bind] at h
  rcases hx : s.trying x with ⟨f | b, u⟩
  · simp [hx, trying_bind] at h
  · simpa [hx] using h

/-- A failure after transfers takes the copies back. -/
theorem takeBack_error {α : Type} {x : Attempt ImportFailure α}
    (h : s.trying (takeBack env xs completed x) = (.error e, s')) :
    ∃ u, s.trying x = (.error e.failure, u) ∧ s' = { u with files := u.files.undo xs } ∧
      e.completed = if env.config.fileStrategy = .reference then completed else [] := by
  unfold takeBack at h
  rw [trying_bind] at h
  rcases hx : s.trying x with ⟨f | b, u⟩
  · simp only [trying_liftM, doing_run, hx, trying_bind, trying_modify, trying_throw,
      Prod.mk.injEq, Except.error.injEq] at h
    obtain ⟨rfl, rfl⟩ := h
    exact ⟨u, rfl, rfl, rfl⟩
  · simp [hx] at h

/-- The tag writes of an attempt. -/
def tagWrites (env : Environment) (t : Task) (choice : Chosen) (previous : List ApplyStep)
    (xs : List Transfer) : List (Transfer × TagFields) :=
  if env.config.writeTags && !previous.contains .writeTags then xs.zip (t.resolvedFields choice)
  else []

theorem retag_ok (h : s.trying (retag env t choice previous xs) = (.ok (), s')) :
    Works s s' ∧
      WritesAll s.tags s.files (tagWrites env t choice previous xs) s'.tags s'.files := by
  unfold retag at h
  unfold tagWrites
  split at h
  next hw =>
    rw [if_pos hw]
    exact writeAllTags_ok (takeBack_ok h)
  next hw =>
    rw [if_neg hw]
    simp only [trying_pure, Prod.mk.injEq, true_and] at h
    subst h
    exact ⟨.refl s, .nil _ _⟩

theorem retag_error (h : s.trying (retag env t choice previous xs) = (.error e, s')) :
    ∃ u done failed, Works s u ∧
      Interrupted s.tags s.files (tagWrites env t choice previous xs) done failed u.files ∧
      s' = { u with files := u.files.undo xs } ∧ ∃ path f, e.failure = .apply t.key .writeTags path f := by
  unfold retag at h
  unfold tagWrites
  split at h
  next hw =>
    rw [if_pos hw]
    obtain ⟨u, hu, rfl, -⟩ := takeBack_error h
    obtain ⟨hworks, he, done, failed, hr⟩ := writeAllTags_error hu
    exact ⟨u, done, failed, hworks, hr, rfl, he⟩
  · simp at h

/-- Removing sources is the whole of a move's end. -/
theorem finishMove_ok {steps : List ApplyStep}
    (h : s.trying (finishMove env t completed paths) = (.ok steps, s')) :
    if env.config.fileStrategy = .move then
      (s.files.removeSources paths).1 = none ∧
        s' = { s with files := s.files.removeFiles paths } ∧ steps = completed ++ [.removeSources]
    else s' = s ∧ steps = completed := by
  unfold finishMove at h
  split
  next hmove =>
    rw [if_pos hmove] at h
    obtain ⟨_, u, hu, h⟩ := trying_bind_ok.mp h
    rw [trying_adapt_ok] at hu
    simp only [Session.removeSources, trying_bind, trying_get, trying_set] at hu
    rcases hr : s.files.removeSources paths with ⟨_ | f, files⟩
    · simp only [hr, trying_pure, Prod.mk.injEq, true_and] at hu
      simp only [trying_pure, Prod.mk.injEq, Except.ok.injEq] at h
      obtain ⟨rfl, rfl⟩ := h
      rw [← removeSources_files, hr]
      exact ⟨rfl, hu.symm, rfl⟩
    · simp [hr] at hu
  next hmove =>
    rw [if_neg hmove] at h
    simp only [trying_pure, Prod.mk.injEq, Except.ok.injEq] at h
    exact ⟨h.2.symm, h.1.symm⟩

theorem finishMove_error (h : s.trying (finishMove env t completed paths) = (.error e, s')) :
    env.config.fileStrategy = .move ∧ (s.files.removeSources paths).1 ≠ none ∧
      s' = { s with files := s.files.removeFiles paths } ∧ e.completed = completed := by
  unfold finishMove at h
  split at h
  next hmove =>
    obtain h | ⟨_, u, -, h⟩ := trying_bind_error.mp h
    · obtain ⟨f, hf, rfl⟩ := trying_adapt_error.mp h
      simp only [Session.removeSources, trying_bind, trying_get] at hf
      rcases hr : s.files.removeSources paths with ⟨_ | f, files⟩
      · simp [hr] at hf
      · simp only [hr, trying_throw, trying_set, Prod.mk.injEq] at hf
        rw [← removeSources_files, hr]
        exact ⟨hmove, by simp, hf.2.symm, rfl⟩
    · simp at h
  · simp at h

/-- Removing sources changes nothing but files. -/
theorem finishMove_only {r : Except ApplyFailure (List ApplyStep)}
    (h : s.trying (finishMove env t completed paths) = (r, s')) : s' = { s with files := s'.files } := by
  cases r with
  | error e =>
    obtain ⟨-, -, rfl, -⟩ := finishMove_error h
    rfl
  | ok steps =>
    have hs := finishMove_ok h
    split at hs
    · rw [hs.2.1]
    · rw [hs.1]

theorem finishMove_catalog {r : Except ApplyFailure (List ApplyStep)}
    (h : s.trying (finishMove env t completed paths) = (r, s')) : s'.catalog = s.catalog := by
  rw [finishMove_only h]

theorem finishMove_tags {r : Except ApplyFailure (List ApplyStep)}
    (h : s.trying (finishMove env t completed paths) = (r, s')) : s'.tags = s.tags := by
  rw [finishMove_only h]

/-- A task is applied in stages: transfers, tags, rows, and the removal of sources. Then it is told. -/
theorem applyAll_notified {a : Applied} (h : s.trying (applyAll env t choice previous) = (.ok a, s')) :
    ∃ xs u v w z, s.trying (transfer env t (t.resolvedTracks choice)) = (.ok xs, u) ∧
      u.trying (retag env t choice previous xs) = (.ok (), v) ∧
      v.trying (commitRows env t choice (placedTracks (t.resolvedTracks choice) xs)) =
        (.ok a.entries, w) ∧
      w.trying (finishMove env t [.transferFiles, .writeTags, .catalogCommit]
        (movedSources xs)) = (.ok a.completed, z) ∧
      s' = (z.doing (notify env (importEvent t choice a.entries a.paths) env.observers)).2 ∧
      a.paths = xs.map (·.dest) := by
  unfold applyAll at h
  obtain ⟨xs, u, htransfer, h⟩ := trying_bind_ok.mp h
  obtain ⟨_, v, hretag, h⟩ := trying_bind_ok.mp h
  obtain ⟨entries, w, hcommit, h⟩ := trying_bind_ok.mp h
  obtain ⟨steps, z, hmove, h⟩ := trying_bind_ok.mp h
  obtain ⟨_, last, hnotify, h⟩ := trying_bind_ok.mp h
  simp only [trying_pure, Prod.mk.injEq, Except.ok.injEq] at h
  obtain ⟨rfl, rfl⟩ := h
  exact ⟨xs, u, v, w, z, trying_adapt_ok.mp htransfer, hretag,
    trying_adapt_ok.mp (takeBack_ok hcommit), hmove, (congrArg Prod.snd hnotify).symm, rfl⟩

/-- Telling of an import changes nothing. -/
theorem applyAll_ok {a : Applied} (h : s.trying (applyAll env t choice previous) = (.ok a, s')) :
    ∃ xs u v w z, s.trying (transfer env t (t.resolvedTracks choice)) = (.ok xs, u) ∧
      u.trying (retag env t choice previous xs) = (.ok (), v) ∧
      v.trying (commitRows env t choice (placedTracks (t.resolvedTracks choice) xs)) =
        (.ok a.entries, w) ∧
      w.trying (finishMove env t [.transferFiles, .writeTags, .catalogCommit]
        (movedSources xs)) = (.ok a.completed, z) ∧
      Consults z s' ∧ a.paths = xs.map (·.dest) := by
  obtain ⟨xs, u, v, w, z, htransfer, hretag, hcommit, hmove, rfl, hpaths⟩ := applyAll_notified h
  exact ⟨xs, u, v, w, z, htransfer, hretag, hcommit, hmove, notify_consults env _ _ z, hpaths⟩

/-- Where applying a task fails: in one of its stages, with those before it done. -/
theorem applyAll_error (h : s.trying (applyAll env t choice previous) = (.error e, s')) :
    (s.trying (transfer env t (t.resolvedTracks choice)) = (.error e.failure, s') ∧
      e.completed = []) ∨
    ∃ xs u, s.trying (transfer env t (t.resolvedTracks choice)) = (.ok xs, u) ∧
      (u.trying (retag env t choice previous xs) = (.error e, s') ∨
        ∃ v, u.trying (retag env t choice previous xs) = (.ok (), v) ∧
          ((∃ f w, v.trying (commitRows env t choice (placedTracks (t.resolvedTracks choice) xs)) =
                (.error f, w) ∧
              s' = { w with files := w.files.undo xs } ∧
              e.completed = if env.config.fileStrategy = .reference then
                [.transferFiles, .writeTags] else []) ∨
            ∃ ids w, v.trying (commitRows env t choice (placedTracks (t.resolvedTracks choice) xs)) =
                (.ok ids, w) ∧
              w.trying (finishMove env t [.transferFiles, .writeTags, .catalogCommit]
                (movedSources xs)) = (.error e, s'))) := by
  unfold applyAll at h
  obtain h | ⟨xs, u, htransfer, h⟩ := trying_bind_error.mp h
  · obtain ⟨f, hf, rfl⟩ := trying_adapt_error.mp h
    exact .inl ⟨hf, rfl⟩
  refine .inr ⟨xs, u, trying_adapt_ok.mp htransfer, ?_⟩
  obtain h | ⟨_, v, hretag, h⟩ := trying_bind_error.mp h
  · exact .inl h
  refine .inr ⟨v, hretag, ?_⟩
  dsimp only at h
  obtain h | ⟨ids, w, hcommit, h⟩ := trying_bind_error.mp h
  · obtain ⟨w, hw, rfl, hcompleted⟩ := takeBack_error h
    obtain ⟨f, hf, -⟩ := trying_adapt_error.mp hw
    exact .inl ⟨f, w, hf, rfl, hcompleted⟩
  refine .inr ⟨ids, w, trying_adapt_ok.mp (takeBack_ok hcommit), ?_⟩
  obtain h | ⟨steps, z, -, h⟩ := trying_bind_error.mp h
  · exact h
  obtain h | ⟨_, last, -, h⟩ := trying_bind_error.mp h <;> simp at h

/-- An attempt after the rows were committed: only sources are removed, and then it is told. -/
theorem finishCommitted_notified {a : Applied}
    (h : s.trying (finishCommitted env t choice) = (.ok a, s')) :
    ∃ u, s.trying (finishMove env t [.transferFiles, .writeTags, .catalogCommit]
        (t.tracks.map (·.path))) = (.ok a.completed, u) ∧
      s' = (u.doing (notify env (importEvent t choice [] []) env.observers)).2 ∧ a.entries = [] ∧
      a.paths = [] := by
  unfold finishCommitted at h
  obtain ⟨steps, u, hmove, h⟩ := trying_bind_ok.mp h
  obtain ⟨_, last, hnotify, h⟩ := trying_bind_ok.mp h
  simp only [trying_pure, Prod.mk.injEq, Except.ok.injEq] at h
  obtain ⟨rfl, rfl⟩ := h
  exact ⟨u, hmove, (congrArg Prod.snd hnotify).symm, rfl, rfl⟩

theorem finishCommitted_ok {a : Applied}
    (h : s.trying (finishCommitted env t choice) = (.ok a, s')) :
    ∃ u, s.trying (finishMove env t [.transferFiles, .writeTags, .catalogCommit]
        (t.tracks.map (·.path))) = (.ok a.completed, u) ∧ Consults u s' ∧ a.entries = [] ∧
      a.paths = [] := by
  obtain ⟨u, hmove, rfl, hentries, hpaths⟩ := finishCommitted_notified h
  exact ⟨u, hmove, notify_consults env _ _ u, hentries, hpaths⟩

theorem finishCommitted_error (h : s.trying (finishCommitted env t choice) = (.error e, s')) :
    s.trying (finishMove env t [.transferFiles, .writeTags, .catalogCommit]
      (t.tracks.map (·.path))) = (.error e, s') := by
  unfold finishCommitted at h
  obtain h | ⟨steps, u, -, h⟩ := trying_bind_error.mp h
  · exact h
  obtain h | ⟨_, last, -, h⟩ := trying_bind_error.mp h <;> simp at h

/-- An attempt before any commit goes through all the stages. -/
theorem apply_first (hfirst : .catalogCommit ∉ env.journal.completedSteps t.key) :
    apply env t = applyAll env t (t.chosen.getD .asIs) (env.journal.completedSteps t.key) := by
  unfold apply
  exact if_neg (by simpa using hfirst)

/-- What an attempt after a commit does: files are removed where sources are to be moved. It fails
with the commit still among its steps. -/
theorem apply_committed {r : Except ApplyFailure Applied}
    (hcommitted : .catalogCommit ∈ env.journal.completedSteps t.key)
    (h : s.trying (apply env t) = (r, s')) :
    Works s s' ∧ (s'.files = if env.config.fileStrategy = .move then
      s.files.removeFiles (t.tracks.map (·.path)) else s.files) ∧
      ∀ e, r = .error e → .catalogCommit ∈ e.completed := by
  unfold apply at h
  dsimp only at h
  rw [if_pos (by simpa using hcommitted)] at h
  have works (files : FileTree) : Works s { s with files } := ⟨rfl, id, [], by simp, by simp⟩
  cases r with
  | error e =>
    obtain ⟨hmove, -, rfl, hcompleted⟩ := finishMove_error (finishCommitted_error h)
    rw [if_pos hmove]
    refine ⟨works _, rfl, ?_⟩
    rintro _ ⟨⟩
    simp [hcompleted]
  | ok a =>
    obtain ⟨u, hmove, hnotify, -, -⟩ := finishCommitted_ok h
    have hu := finishMove_ok hmove
    rw [hnotify.files]
    split
    next hm =>
      rw [if_pos hm] at hu
      rw [hu.2.1] at hnotify ⊢
      exact ⟨(works _).trans hnotify.toWorks, rfl, fun _ he => by cases he⟩
    next hm =>
      rw [if_neg hm] at hu
      rw [hu.1] at hnotify ⊢
      exact ⟨hnotify.toWorks, rfl, fun _ he => by cases he⟩

end Apply

/-- The steps that a failed attempt has left. -/
def failedSteps : Except ApplyFailure Applied → Option (List ApplyStep)
  | .ok _ => none
  | .error e => some e.completed

theorem exists_of_failedSteps {r : Except ApplyFailure Applied} {steps : List ApplyStep}
    (h : failedSteps r = some steps) : ∃ e, r = .error e ∧ e.completed = steps := by
  cases r with
  | ok a => cases h
  | error e => exact ⟨e, rfl, Option.some.inj h⟩

/-- A library in which files are named by their titles. -/
def titleLibrary (strategy : FileStrategy) : Environment :=
  { config := { libraryPath := ⟨"lib"⟩, fileStrategy := strategy }
    layout := .template ⟨"\x7bTitle\x7d", true⟩ }

end Session
end MusicImport
