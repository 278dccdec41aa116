import MusicImport.Proofs.Paths
import MusicImport.Proofs.Tags.Writing

/-! What the tags of a file tell. By any codec, a read depends on the content of the file and on what was
written under its path, so that writes under other paths to other files leave it alone. -/
namespace MusicImport

namespace TagFields

/-- The values of `g` in the fields that `f` sets. -/
def restrict (g f : TagFields) : TagFields :=
  { title := f.title.bind fun _ => g.title, artist := f.artist.bind fun _ => g.artist
    album := f.album.bind fun _ => g.album, albumArtist := f.albumArtist.bind fun _ => g.albumArtist
    trackNumber := f.trackNumber.bind fun _ => g.trackNumber
    trackTotal := f.trackTotal.bind fun _ => g.trackTotal
    discNumber := f.discNumber.bind fun _ => g.discNumber
    discTotal := f.discTotal.bind fun _ => g.discTotal
    year := f.year.bind fun _ => g.year, label := f.label.bind fun _ => g.label
    catalogNumber := f.catalogNumber.bind fun _ => g.catalogNumber
    trackId := f.trackId.bind fun _ => g.trackId, albumId := f.albumId.bind fun _ => g.albumId }

end TagFields

namespace Track

variable {f : TagFields}

theorem withFields_withFields (t : Track) (f : TagFields) :
    (t.withFields f).withFields f = t.withFields f := by
  simp only [withFields, ← Option.or_assoc, Option.or_self]

/-- A track with some values has them in the fields that they set. -/
theorem fields_withFields (t : Track) (f : TagFields) : (t.withFields f).fields.restrict f = f := by
  have hset {α : Type} (x y : Option α) : (x.bind fun _ => x.or y) = x := by cases x <;> rfl
  simp only [fields, withFields, TagFields.restrict, hset]

theorem fields_of_withFields {t : Track} (h : t.withFields f = t) : t.fields.restrict f = f := by
  rw [← h, fields_withFields]

end Track

namespace TagRecords

variable {r : TagRecords} {p : FilePath}

/-- The record that a write goes to is one of the path. -/
theorem record_same (r : TagRecords) (p : FilePath) : ((r.find? p).getD { path := p }).path.same p := by
  cases h : r.find? p with
  | none => exact p.same_refl
  | some t =>
    have hsome := List.find?_some h
    exact hsome

theorem find?_write (f : TagFields) :
    (r.write p f).find? p = some (((r.find? p).getD { path := p }).withFields f) := by
  unfold write find?
  exact List.find?_cons_of_pos (r.record_same p)

theorem after_unreadable (r : TagRecords) (ws : List TagWrite) : (r.after ws).unreadable = r.unreadable := by
  induction ws with
  | nil => rfl
  | cons w ws ih => exact ih

theorem read_after_write (f : TagFields) (ws : List TagWrite) (h : r.unreadable = []) :
    ∃ u : Track, (r.after (⟨p, f⟩ :: ws)).read p = .ok (u.withFields f) := by
  have hfound : (r.after (⟨p, f⟩ :: ws)).find? p =
      some ((((r.after ws).find? p).getD { path := p }).withFields f) := find?_write f
  refine ⟨((r.after ws).find? p).getD { path := p }, ?_⟩
  unfold read
  rw [after_unreadable, h, hfound]
  rfl

end TagRecords

namespace TagStore

variable {s s' : TagStore} {t t' : FileTree} {p q : FilePath} {f g : TagFields}

theorem writtenTo_cons (s : TagStore) (p : FilePath) (f : TagFields) :
    ({ s with written := ⟨p, f⟩ :: s.written } : TagStore).writtenTo p = ⟨p, f⟩ :: s.writtenTo p :=
  List.filter_cons_of_pos p.same_refl

theorem writtenTo_cons_other (s : TagStore) (f : TagFields) (h : ¬ p.same q) :
    ({ s with written := ⟨p, f⟩ :: s.written } : TagStore).writtenTo q = s.writtenTo q :=
  List.filter_cons_of_neg h

/-- Whatever can be written with these values has them when it is read again, whatever else was written
before. -/
def Sets (s : TagStore) (f : TagFields) : Prop :=
  ∀ written t p s' t', ({ s with written } : TagStore).write t p f = .ok (s', t') →
    ∃ u, s'.read t' p = .ok u ∧ u.withFields f = u

/-- Records set all values, unless some files cannot be read. -/
theorem records_sets_iff {r : TagRecords} : (records r).Sets f ↔ r.unreadable = [] := by
  constructor
  · intro h
    cases hr : r.unreadable with
    | nil => rfl
    | cons p rest =>
      -- the record of an unreadable file is written all the same
      obtain ⟨u, hu, -⟩ := h [] {} p _ _ rfl
      simp [read, records, TagRecords.codec, TagRecords.read, TagRecords.after_unreadable, hr,
        p.same_refl] at hu
  · intro h written t p s' t' hw
    obtain ⟨-, rfl, -⟩ := write_ok hw
    obtain ⟨u, hu⟩ := TagRecords.read_after_write (p := p) f
      (({ records r with written } : TagStore).writtenTo p) h
    refine ⟨u.withFields f, ?_, u.withFields_withFields f⟩
    unfold read
    rw [writtenTo_cons]
    exact hu

theorem Sets.of_write (h : s.Sets g) (hw : s.write t p f = .ok (s', t')) : s'.Sets g := by
  obtain ⟨-, rfl, -⟩ := write_ok hw
  exact h

/-- Apart from the files, a write changes only what is read under its own path. -/
theorem read_write_other (hw : s.write t p f = .ok (s', t')) (h : ¬ p.same q) (u : FileTree) :
    s'.read u q = s.read u q := by
  obtain ⟨-, rfl, -⟩ := write_ok hw
  unfold read
  rw [writtenTo_cons_other s f h]

/-- What is read from a file that is there depends on its content alone. -/
theorem read_congr {c : ByteArray} (h : t.read p = .ok c) (h' : t'.read p = .ok c) :
    s.read t p = s.read t' p := by
  have hview : t.view p = t'.view p := by
    unfold FileTree.view
    rw [FileTree.exists?_of_read h, FileTree.exists?_of_read h', h, h']
  unfold read
  rw [hview]

/-- The tags of the file of a track tell its values in the fields that are set. -/
def Tells (s : TagStore) (t : FileTree) (f : TagFields) (track : Track) : Prop :=
  f.isEmpty = false →
    ∃ u, s.read t track.path = .ok u ∧ u.fields.restrict f = track.fields.restrict f

instance (s : TagStore) (t : FileTree) (f : TagFields) (track : Track) : Decidable (s.Tells t f track) :=
  decidable_of_iff (f.isEmpty = false → (s.read t track.path).toOption.map (·.fields.restrict f) =
      some (track.fields.restrict f)) <| by
    unfold Tells
    cases s.read t track.path <;> simp [Except.toOption]

end TagStore
end MusicImport
