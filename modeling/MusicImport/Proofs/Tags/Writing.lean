import MusicImport.Proofs.Library.Copies
import MusicImport.Tags.Store

/-! What a tag write does to the files: one of them gets another content. With tags in FLAC files it is the
file with the values among its keyed texts. -/
namespace MusicImport

namespace FileTree

variable {t t' u : FileTree} {path : FilePath} {q : Place} {c : ByteArray}

theorem sameShape_put (h : t.contentAt? q = some c) (d : ByteArray) :
    SameShape t (t.put q (.file d)) := by
  have hn := contentAt?_eq_some.mp h
  have hext : Extends t (t.put q (.file d)) := extends_put_file (.inl ⟨c, hn⟩) d
  have hq : q ≠ [] := by
    rintro rfl
    simp at hn
  refine ⟨hext, rfl, rfl, rfl, fun r hr => ?_, fun r e hr => ?_, fun r target => (hext.link r target).symm⟩
  · by_cases hrq : r = q
    · simp [hrq, hq] at hr
    · rwa [nodeAt?_put_of_ne t _ hrq] at hr
  · by_cases hrq : r = q
    · exact ⟨c, hrq ▸ hn⟩
    · exact ⟨e, by rwa [nodeAt?_put_of_ne t _ hrq] at hr⟩

/-- At most the file that a path leads to has another content, the one that a function gives. -/
structure Rewrites (t t' : FileTree) (path : FilePath) (g : ByteArray → ByteArray) : Prop
    extends SameShape t t' where
  here : ∀ q, t.locate path = .ok q → t'.contentAt? q = (t.contentAt? q).map g
  elsewhere : ∀ q, t.locate path ≠ .ok q → t'.contentAt? q = t.contentAt? q

namespace Rewrites

variable {g : ByteArray → ByteArray}

theorem of_put (hq : t.locate path = .ok q) (hc : t.contentAt? q = some c) :
    Rewrites t (t.put q (.file (g c))) path g := by
  have hne : q ≠ [] := by
    rintro rfl
    simp [contentAt?] at hc
  refine ⟨sameShape_put hc _, fun r hr => ?_, fun r hr => ?_⟩
  · obtain rfl : q = r := by simpa [hq] using hr
    rw [contentAt?_put t hne, hc]
    rfl
  · refine contentAt?_put_of_ne t _ ?_
    rintro rfl
    exact hr hq

theorem of_absent (h : ∀ q, t.locate path = .ok q → t.contentAt? q = none) :
    Rewrites t t path g :=
  ⟨.refl t, fun q hq => by simp [h q hq], fun _ _ => rfl⟩

end Rewrites

variable {g : ByteArray → ByteArray}

theorem rewrite_of_read (h : t.read path = .ok c) : ∃ q, t.locate path = .ok q ∧ t.contentAt? q = some c ∧
    t.write path (g c) = .ok (t.rewrite path g) ∧ t.rewrite path g = t.put q (.file (g c)) := by
  obtain ⟨q, hq, hc, hwrite⟩ := write_of_read h (g c)
  have hrewrite : t.rewrite path g = t.put q (.file (g c)) := by
    unfold rewrite
    rw [h]
    simp only [hwrite, Except.toOption, Option.getD_some]
  exact ⟨q, hq, hc, by rw [hrewrite, hwrite], hrewrite⟩

theorem rewrite_rewrites (t : FileTree) (path : FilePath) (g : ByteArray → ByteArray) :
    Rewrites t (t.rewrite path g) path g := by
  cases hread : t.read path with
  | ok c =>
    obtain ⟨q, hq, hc, -, hrewrite⟩ := rewrite_of_read (g := g) hread
    rw [hrewrite]
    exact .of_put hq hc
  | error e =>
    have hsame : t.rewrite path g = t := by
      unfold rewrite
      rw [hread]
    rw [hsame]
    refine .of_absent fun q hq => ?_
    cases hc : t.contentAt? q with
    | none => rfl
    | some c => simp [read_ok.mpr ⟨q, hq, hc⟩] at hread

theorem read_rewrite (h : t.read path = .ok c) : (t.rewrite path g).read path = .ok (g c) := by
  obtain ⟨q, -, -, hwrite, -⟩ := rewrite_of_read (g := g) h
  exact read_of_write_ok hwrite

end FileTree

open FileTree

variable {t t' : FileTree} {path : FilePath} {f : TagFields} {s s' : TagStore} {flac : FlacFile} {c : ByteArray}

theorem FileTree.flac_ok (h : t.flac path = .ok flac) :
    ∃ c, t.read path = .ok c ∧ FlacFile.decode? c = some flac := by
  unfold FileTree.flac FileView.flac view at h
  dsimp only at h
  split at h
  · cases h
  · split at h
    · cases h
    · split at h
      · cases h
      next c hc =>
        split at h
        next flac hflac =>
          cases h
          exact ⟨c, hc, hflac⟩
        · cases h

/-- A tag write that succeeds is remembered, and gives its file the content that its codec makes. -/
theorem TagStore.write_ok (h : s.write t path f = .ok (s', t')) :
    s.codec.check path (s.writtenTo path) (t.view path) f = .ok () ∧
      s' = { s with written := ⟨path, f⟩ :: s.written } ∧
      t' = t.rewrite path (s.retagged path f) := by
  unfold write at h
  split at h
  · cases h
  next hcheck =>
    obtain ⟨rfl, rfl⟩ := Prod.mk.inj (Except.ok.inj h)
    exact ⟨hcheck, rfl, rfl⟩

theorem TagStore.write_rewrites (h : s.write t path f = .ok (s', t')) :
    s'.retagged = s.retagged ∧ s'.spoiled = s.spoiled ∧ Rewrites t t' path (s.retagged path f) := by
  obtain ⟨-, rfl, rfl⟩ := write_ok h
  exact ⟨rfl, rfl, rewrite_rewrites t path _⟩

/-- Values that can be written to a FLAC file fit into it. -/
theorem FileTree.fits_of_check {ws : List TagWrite} (hf : f.isEmpty = false)
    (h : flacCodec.check path ws (t.view path) f = .ok ()) :
    ∃ flac, t.flac path = .ok flac ∧ (flac.withFields f).fits = true := by
  simp only [flacCodec, hf, Bool.false_eq_true, if_false] at h
  split at h
  · cases h
  · split at h
    · cases h
    next flac hflac =>
      split at h
      next hfits => exact ⟨flac, hflac, hfits⟩
      · cases h

/-- A FLAC file with values in it is another FLAC file. -/
theorem flacCodec_retagged (hf : f.isEmpty = false) (hdecode : FlacFile.decode? c = some flac) :
    flacCodec.retagged path f c = (flac.withFields f).encode := by
  simp only [flacCodec, hf, Bool.false_eq_true, if_false, hdecode]

/-- No values leave a FLAC file as it is. -/
theorem flacCodec_retagged_empty (hf : f.isEmpty = true) : flacCodec.retagged path f c = c := by
  simp only [flacCodec, hf, if_true]

end MusicImport
