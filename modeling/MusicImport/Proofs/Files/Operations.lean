import MusicImport.Proofs.Files.WellFormed

/-! What the operations on files do to a tree. Each of those that succeed changes one place, where a
path leads; making directories changes places at which nothing was. -/
namespace MusicImport
namespace FileTree

variable {t t' : FileTree} {path : FilePath} {p q : Place} {n : Node} {c : ByteArray}

theorem put_put (t : FileTree) (p : Place) (m n : Node) : (t.put p m).put p n = t.put p n := by
  simp [put, erase, List.filter_filter]

theorem contentAt?_put (t : FileTree) (h : p ≠ []) (c : ByteArray) :
    (t.put p (.file c)).contentAt? p = some c := by simp [contentAt?, h]

theorem contentAt?_put_of_ne (t : FileTree) (n : Node) (h : q ≠ p) :
    (t.put p n).contentAt? q = t.contentAt? q := by
  simp [contentAt?, nodeAt?_put_of_ne t n h]

theorem contentAt?_erase_of_ne (t : FileTree) (h : q ≠ p) :
    (t.erase p).contentAt? q = t.contentAt? q := by
  simp [contentAt?, nodeAt?_erase_of_ne t h]

/-- A place for a file: one is there, or nothing is and something can be made. -/
def Writable (t : FileTree) (p : Place) : Prop :=
  (∃ d, t.nodeAt? p = some (.file d)) ∨ t.nodeAt? p = none ∧ t.isKept p = false

theorem Writable.ne_root (h : t.Writable p) : p ≠ [] := by
  rintro rfl
  simp [Writable] at h

theorem extends_put_file (h : t.Writable p) (c : ByteArray) : Extends t (t.put p (.file c)) := by
  have hp := h.ne_root
  have other {q : Place} {n : Node} (hn : t.nodeAt? q = some n) (hf : ∀ d, n ≠ .file d) :
      q ≠ p := by
    rintro rfl
    obtain ⟨d, hd⟩ | ⟨hd, -⟩ := h
    · rw [hd] at hn
      exact hf d (Option.some.inj hn).symm
    · simp [hd] at hn
  refine ⟨rfl, rfl, rfl, fun q hq => ?_, fun q d hq => ?_, fun q target => ?_⟩
  · rw [nodeAt?_put_of_ne t _ (other hq (by simp)), hq]
  · by_cases hqp : q = p
    · exact ⟨c, by rw [hqp, nodeAt?_put t p _ hp]⟩
    · exact ⟨d, by rw [nodeAt?_put_of_ne t _ hqp, hq]⟩
  · constructor
    · intro hq
      by_cases hqp : q = p
      · simp [hqp, hp] at hq
      · rwa [nodeAt?_put_of_ne t _ hqp] at hq
    · intro hq
      rw [nodeAt?_put_of_ne t _ (other hq (by simp)), hq]

/-- A directory where nothing was. -/
theorem extends_put_directory (h : t.nodeAt? p = none) : Extends t (t.put p .directory) := by
  have other {q : Place} {n : Node} (hn : t.nodeAt? q = some n) : q ≠ p := by
    rintro rfl
    simp [h] at hn
  refine ⟨rfl, rfl, rfl, fun q hq => ?_, fun q d hq => ⟨d, ?_⟩,
    fun q target => ⟨fun hq => ?_, fun hq => ?_⟩⟩
  · rw [nodeAt?_put_of_ne t _ (other hq), hq]
  · rw [nodeAt?_put_of_ne t _ (other hq), hq]
  · by_cases hqp : q = p
    · have hp : p ≠ [] := by
        rintro rfl
        simp at h
      simp [hqp, hp] at hq
    · rwa [nodeAt?_put_of_ne t _ hqp] at hq
  · rw [nodeAt?_put_of_ne t _ (other hq), hq]

/-- What a write does: the content at the place of the path is the new one. A new file is made in
no directory that is read only. -/
theorem write_ok (h : t.write path c = .ok t') :
    ∃ q, t.locate path = .ok q ∧ t.Writable q ∧ t' = t.put q (.file c) := by
  unfold write at h
  cases hq : t.locate path with
  | error e => simp [hq, Bind.bind, Except.bind] at h
  | ok q =>
    simp only [hq, Bind.bind, Except.bind] at h
    cases hn : t.nodeAt? q with
    | none =>
      simp only [hn] at h
      split at h
      · cases h
      next hk =>
        cases h
        exact ⟨q, rfl, .inr ⟨hn, by simpa using hk⟩, rfl⟩
    | some n =>
      simp only [hn] at h
      cases n with
      | file d =>
        cases h
        exact ⟨q, rfl, .inl ⟨d, hn⟩, rfl⟩
      | directory => cases h
      | link target => cases h

/-- Reading finds what is at the place of the path. -/
theorem read_ok : t.read path = .ok c ↔ ∃ q, t.locate path = .ok q ∧ t.contentAt? q = some c := by
  unfold read contentAt?
  cases hq : t.locate path with
  | error e => simp [Bind.bind, Except.bind]
  | ok q =>
    cases hn : t.nodeAt? q with
    | none => simp [Bind.bind, Except.bind, hn, throw, throwThe, MonadExceptOf.throw]
    | some n =>
      cases n <;> simp [Bind.bind, Except.bind, hn, Pure.pure, Except.pure, throw, throwThe,
        MonadExceptOf.throw]

theorem exists?_of_read (h : t.read path = .ok c) : t.exists? path = true := by
  obtain ⟨q, hq, hc⟩ := read_ok.mp h
  simp [exists?, find?, hq, contentAt?_eq_some.mp hc]

theorem write_wellFormed (hw : t.WellFormed) (h : t.write path c = .ok t') : t'.WellFormed := by
  obtain ⟨q, hq, hwritable, rfl⟩ := write_ok h
  refine hw.put (hw.parent_of_locate hq) (fun hdir => ?_) _
  obtain ⟨d, hd⟩ | ⟨hd, -⟩ := hwritable
  · rw [hdir] at hd
    cases hd
  · rw [hdir] at hd
    cases hd

/-- What was written is read. -/
theorem read_of_write_ok (h : t.write path c = .ok t') : t'.read path = .ok c := by
  obtain ⟨q, hq, hwritable, rfl⟩ := write_ok h
  exact read_ok.mpr ⟨q, locate_of_extends (extends_put_file hwritable c) hq,
    contentAt?_put t hwritable.ne_root c⟩

/-- What a removal does: the file or link at the place of the path is gone. -/
theorem remove_ok (h : t.remove path = .ok t') :
    ∃ q n, t.locate path false = .ok q ∧ t.nodeAt? q = some n ∧ n ≠ .directory ∧
      t.isKept q = false ∧ t' = t.erase q := by
  unfold remove at h
  cases hq : t.locate path false with
  | error e => simp [hq, Bind.bind, Except.bind] at h
  | ok q =>
    simp only [hq, Bind.bind, Except.bind] at h
    cases hn : t.nodeAt? q with
    | none => simp [hn, throw, throwThe, MonadExceptOf.throw] at h
    | some n =>
      simp only [hn] at h
      split at h
      · cases h
      next hk =>
        have hk : t.isKept q = false := by simpa using hk
        cases n with
        | file d =>
          cases h
          exact ⟨q, _, rfl, hn, by simp, hk, rfl⟩
        | directory => cases h
        | link target =>
          cases h
          exact ⟨q, _, rfl, hn, by simp, hk, rfl⟩

/-- A file can be removed unless its directory is read only. -/
theorem remove_file (hq : t.locate path false = .ok q) (hc : t.contentAt? q = some c) :
    t.remove path = if t.isKept q then .error .denied else .ok (t.erase q) := by
  unfold remove
  rw [contentAt?_eq_some] at hc
  simp only [hq, hc, Bind.bind, Except.bind]
  split <;> rfl

/-- Nothing but directories is added. -/
structure AddsDirectories (t t' : FileTree) : Prop extends Extends t t' where
  content : ∀ p, t'.contentAt? p = t.contentAt? p

namespace AddsDirectories

theorem refl (t : FileTree) : AddsDirectories t t := ⟨.refl t, fun _ => rfl⟩

theorem trans {u : FileTree} (h : AddsDirectories t u) (h' : AddsDirectories u t') :
    AddsDirectories t t' :=
  ⟨h.toExtends.trans h'.toExtends, fun p => (h'.content p).trans (h.content p)⟩

end AddsDirectories

theorem createDirectory_ok (h : t.createDirectory path = .ok t') :
    ∃ q, t.locate path false = .ok q ∧ t.nodeAt? q = none ∧ t' = t.put q .directory := by
  unfold createDirectory at h
  cases hq : t.locate path false with
  | error e => simp [hq, Bind.bind, Except.bind] at h
  | ok q =>
    simp only [hq, Bind.bind, Except.bind] at h
    split at h
    · cases h
    next hn =>
      split at h
      · cases h
      · cases h
        exact ⟨q, rfl, hn, rfl⟩

theorem createDirectory_adds (h : t.createDirectory path = .ok t') : AddsDirectories t t' := by
  obtain ⟨q, -, hn, rfl⟩ := createDirectory_ok h
  refine ⟨extends_put_directory hn, fun p => ?_⟩
  by_cases hpq : p = q
  · have hq : q ≠ [] := by
      rintro rfl
      simp at hn
    simp [contentAt?, hpq, hn, hq]
  · exact contentAt?_put_of_ne t _ hpq

theorem createDirectory_wellFormed (hw : t.WellFormed) (h : t.createDirectory path = .ok t') :
    t'.WellFormed := by
  obtain ⟨q, hq, hn, rfl⟩ := createDirectory_ok h
  exact hw.put (hw.parent_of_locate hq) (by simp [hn]) _

/-- What holds of a tree, and goes over from a tree to one with another directory, holds after
directories are made. -/
theorem createDirectories_induct {R : FileTree → FileTree → Prop} (refl : ∀ t, R t t)
    (trans : ∀ {t u v}, R t u → R u v → R t v)
    (step : ∀ {t t' path}, createDirectory t path = .ok t' → R t t') {fuel : Nat}
    (h : t.createDirectories fuel path = .ok t') : R t t' := by
  induction fuel generalizing t t' path with
  | zero => simp [createDirectories] at h
  | succ fuel ih =>
    unfold createDirectories at h
    split at h
    · cases h
      exact refl _
    · split at h
      next u hu =>
        cases h
        exact step hu
      · split at h
        · cases h
        next parent hparent =>
          cases hu : t.createDirectories fuel parent with
          | error e => simp [hu, Bind.bind, Except.bind] at h
          | ok u =>
            simp only [hu, Bind.bind, Except.bind] at h
            split at h
            next v hv =>
              cases h
              exact trans (ih hu) (step hv)
            · split at h
              · cases h
                exact ih hu
              · cases h
      · split at h
        · cases h
          exact refl _
        · cases h

theorem ensureDirectory_adds (h : t.ensureDirectory path = .ok t') : AddsDirectories t t' :=
  createDirectories_induct .refl .trans createDirectory_adds h

theorem ensureDirectory_wellFormed (hw : t.WellFormed) (h : t.ensureDirectory path = .ok t') :
    t'.WellFormed :=
  createDirectories_induct (R := fun t t' => t.WellFormed → t'.WellFormed) (fun _ h => h)
    (fun h h' x => h' (h x)) (fun h x => createDirectory_wellFormed x h) h hw

/-- What is read from a source once the target of its copy is emptied. -/
theorem read_emptied {source : FilePath} {s : Place} (hs : t.locate source = .ok s)
    (hc : t.contentAt? s = some c) (hq : t.Writable q) :
    (t.put q (.file ByteArray.empty)).read source = .ok (if s = q then ByteArray.empty else c) := by
  refine read_ok.mpr ⟨s, locate_of_extends (extends_put_file hq ByteArray.empty) hs, ?_⟩
  split
  next hsq => rw [hsq, contentAt?_put t hq.ne_root]
  next hsq => rw [contentAt?_put_of_ne t _ hsq, hc]

/-- A copy begins where its source is a file and one can be put at its target, which is emptied. What is to
get there is what was at the place of the source, or nothing if that is its own place. -/
theorem openCopy_ok {source target : FilePath} {u : FileTree}
    (h : t.openCopy source target = .ok ⟨q, c, u⟩) :
    ∃ s d, t.locate source = .ok s ∧ t.contentAt? s = some d ∧ t.locate target = .ok q ∧ t.Writable q ∧
      c = (if s = q then ByteArray.empty else d) ∧ u = t.put q (.file ByteArray.empty) := by
  unfold openCopy at h
  cases hs : t.locate source with
  | error e => simp [hs, Bind.bind, Except.bind] at h
  | ok s =>
    simp only [hs, Bind.bind, Except.bind] at h
    split at h
    · cases h
    next d hd =>
      have hd : t.contentAt? s = some d := contentAt?_eq_some.mpr hd
      cases hv : t.write target ByteArray.empty with
      | error e => simp [hv] at h
      | ok v =>
        obtain ⟨r, hr, hn, rfl⟩ := write_ok hv
        have hext := extends_put_file hn ByteArray.empty
        simp only [hv, locate_of_extends hext hr, read_emptied hs hd hn] at h
        cases h
        exact ⟨s, d, rfl, hd, hr, hn, rfl, rfl⟩
    · cases h

/-- What a copy that succeeds does: the target holds what was to get there. -/
theorem copy_ok {source target : FilePath} (h : t.copy source target = (.ok (), t')) :
    ∃ s q c, t.locate source = .ok s ∧ t.contentAt? s = some c ∧ t.locate target = .ok q ∧
      t.Writable q ∧ t.defectAt? q = none ∧
      t' = t.put q (.file (if s = q then ByteArray.empty else c)) := by
  unfold copy at h
  split at h
  · cases h
  next q content files hopen =>
    obtain ⟨s, c, hs, hc, hq, hwritable, hcontent, hfiles⟩ := openCopy_ok hopen
    split at h
    next hd =>
      cases h
      refine ⟨s, q, c, hs, hc, hq, hwritable, hd, ?_⟩
      rw [hcontent, hfiles, put_put]
    · cases h

/-- A copy that fails does nothing, or breaks off after some bytes, which stay at its target. -/
theorem copy_error {source target : FilePath} {e : IoError} (h : t.copy source target = (.error e, t')) :
    t' = t ∨ ∃ s q c n, t.locate source = .ok s ∧ t.contentAt? s = some c ∧ t.locate target = .ok q ∧
      t.Writable q ∧ t.defectAt? q = some n ∧ e = .device ∧
      t' = t.put q (.file ((if s = q then ByteArray.empty else c).extract 0 n)) := by
  unfold copy at h
  split at h
  · cases h
    exact .inl rfl
  next q content files hopen =>
    obtain ⟨s, c, hs, hc, hq, hwritable, hcontent, hfiles⟩ := openCopy_ok hopen
    split at h
    · cases h
    next n hd =>
      cases h
      refine .inr ⟨s, q, c, n, hs, hc, hq, hwritable, hd, rfl, ?_⟩
      rw [hcontent, hfiles, put_put]

/-- Where a file can be put, a write puts it. -/
theorem Writable.write (h : t.Writable q) (hq : t.locate path = .ok q) (c : ByteArray) :
    t.write path c = .ok (t.put q (.file c)) := by
  unfold FileTree.write
  obtain ⟨d, hd⟩ | ⟨hn, hk⟩ := h
  · simp only [hq, hd, Bind.bind, Except.bind]
    rfl
  · simp only [hq, hn, hk, Bind.bind, Except.bind]
    rfl

section

variable {source target : FilePath} {s : Place} {m : Nat} (h : t.Writable q) (hs : t.locate source = .ok s)
  (hc : t.contentAt? s = some c) (hq : t.locate target = .ok q)

include h hs hc hq

theorem Writable.openCopy : t.openCopy source target =
    .ok ⟨q, if s = q then ByteArray.empty else c, t.put q (.file ByteArray.empty)⟩ := by
  have hplace := locate_of_extends (extends_put_file h ByteArray.empty) hq
  unfold FileTree.openCopy
  simp only [hs, contentAt?_eq_some.mp hc, h.write hq, hplace, read_emptied hs hc h, Bind.bind, Except.bind]
  rfl

/-- A file can be copied to where one can be put, -/
theorem Writable.copy (hd : t.defectAt? q = none) :
    t.copy source target = (.ok (), t.put q (.file (if s = q then ByteArray.empty else c))) := by
  unfold FileTree.copy
  simp only [h.openCopy hs hc hq, hd, put_put]

/-- unless the device fails there. -/
theorem Writable.copy_breaks (hd : t.defectAt? q = some m) : t.copy source target =
    (.error .device, t.put q (.file ((if s = q then ByteArray.empty else c).extract 0 m))) := by
  unfold FileTree.copy
  simp only [h.openCopy hs hc hq, hd, put_put]

end

/-- A file can be written over. -/
theorem write_of_read (h : t.read path = .ok c) (d : ByteArray) :
    ∃ q, t.locate path = .ok q ∧ t.contentAt? q = some c ∧
      t.write path d = .ok (t.put q (.file d)) := by
  obtain ⟨q, hq, hc⟩ := read_ok.mp h
  have hwritable : t.Writable q := .inl ⟨c, contentAt?_eq_some.mp hc⟩
  exact ⟨q, hq, hc, hwritable.write hq d⟩

end FileTree
end MusicImport
