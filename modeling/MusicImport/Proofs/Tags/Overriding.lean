import MusicImport.Proofs.Tags.Encoding
import MusicImport.Proofs.Tags.Reading
import MusicImport.Proofs.Tags.Setting

/-! What is read from a FLAC file after values were written to it: the record from before with these values in
it, apart from a total that stood behind a number that was replaced and a year that stays under its other key. -/
namespace MusicImport

variable {t t' : FileTree} {p : FilePath} {f : TagFields} {cs : List Comment} {flac flac' : FlacFile}
  {c : ByteArray} {s s' : TagStore}

theorem name_of_mem_setComment {key : TagKey} {text : String} {d : Comment}
    (h : d ∈ setComment key text cs) : d ∈ cs ∨ d.name = key.name := by
  obtain h | h := List.mem_append.mp h
  · exact .inl (List.mem_of_mem_filter h)
  · obtain rfl := List.mem_singleton.mp h
    exact .inr rfl

/-- A property of names that those of the keys have stays with comments that values are set in. -/
theorem names_applyFields {P : String → Prop} (hkeys : ∀ k : TagKey, P k.name)
    (h : ∀ d ∈ cs, P d.name) (f : TagFields) : ∀ d ∈ applyFields f cs, P d.name := by
  have hset {key : TagKey} {text : String} {cs : List Comment} (h : ∀ d ∈ cs, P d.name) :
      ∀ d ∈ setComment key text cs, P d.name := fun d hd => by
    obtain hd | hd := name_of_mem_setComment hd
    · exact h d hd
    · exact hd ▸ hkeys key
  have hsome {α : Type} {key : TagKey} {g : α → String} {o : Option α} {cs : List Comment}
      (h : ∀ d ∈ cs, P d.name) : ∀ d ∈ setSome key g o cs, P d.name := by
    cases o with
    | none => exact h
    | some a => exact hset h
  have hyear {cs : List Comment} (h : ∀ d ∈ cs, P d.name) : ∀ d ∈ setYear f.year cs, P d.name := by
    obtain hsame | ⟨key, text, -, hwritten⟩ := setYear_cases f.year cs
    · rwa [hsame]
    · rw [hwritten]
      exact hset h
  exact hsome (hsome (hsome (hsome (hsome (hsome (hsome (hsome (hsome (hyear (hsome (hsome (hsome h))))))))))))

theorem FlacFile.track_eq_told (f : FlacFile) (p : FilePath) :
    f.track p = Track.told p (some f.length) f.comments := Track.addComments_eq_told ..

/-- Another FLAC file in the place of one is read like it. -/
theorem FileTree.flac_of_read (h : t.flac p = .ok flac) (hread : t'.read p = .ok c)
    (hdecode : FlacFile.decode? c = some flac') : t'.flac p = .ok flac' := by
  have hextension : ¬ (p.extension?.map Text.asciiLowercase != some "flac") = true := by
    intro hother
    simp only [FileTree.flac, FileView.flac, hother, if_true] at h
    split at h <;> cases h
  simp only [FileTree.flac, FileView.flac, view, exists?_of_read hread, Bool.not_true, Bool.false_eq_true,
    if_false, if_neg hextension, hread, hdecode]

namespace TagStore

theorem read_flac (hs : s.codec = flacCodec) (h : t.flac p = .ok flac) :
    s.read t p = .ok (Track.told p (some flac.length) flac.comments) := by
  unfold read
  rw [hs, ← FlacFile.track_eq_told]
  show (t.flac p).map (·.track p) = _
  rw [h]
  rfl

/-- What is read after a write, in full. -/
theorem read_written (hs : s.codec = flacCodec) (hflac : t.flac p = .ok flac) (hclean : f.Clean)
    (hwrite : s.write t p f = .ok (s', t')) :
    s'.read t' p = .ok (Track.told p (some flac.length) (applyFields f flac.comments)) := by
  obtain ⟨hcheck, rfl, rfl⟩ := write_ok hwrite
  unfold retagged
  rw [hs] at hcheck ⊢
  obtain ⟨c, hread, hdecode⟩ := FileTree.flac_ok hflac
  have hafter : (t.rewrite p (flacCodec.retagged p f)).read p = _ := FileTree.read_rewrite hread
  cases hf : f.isEmpty with
  | true =>
    rw [flacCodec_retagged_empty hf] at hafter
    obtain rfl : f = {} := by simpa [TagFields.isEmpty] using hf
    rw [read_flac rfl (FileTree.flac_of_read hflac hafter hdecode)]
    rfl
  | false =>
    obtain ⟨other, hother, hfits⟩ := FileTree.fits_of_check hf hcheck
    obtain rfl := Except.ok.inj (hflac.symm.trans hother)
    have hvalid := FlacFile.valid_of_decode? hdecode
    have hnames : ∀ d ∈ applyFields f flac.comments, '=' ∉ d.name.toList :=
      names_applyFields (P := fun name => '=' ∉ name.toList) (fun k => by cases k <;> decide)
        flac.comments_names f
    rw [flacCodec_retagged hf hdecode] at hafter
    have hwritten := FileTree.flac_of_read hflac hafter
      (FlacFile.decode?_encode (hvalid.withComments _) hfits)
    rw [read_flac rfl hwritten, FlacFile.withFields, hvalid.length_withComments,
      FlacFile.comments_withComments hnames hfits]

end TagStore

namespace TagFields

/-- A total can be told as before: its number stays, a total of its own is set, or it stands by itself. -/
def KeepsTotal (number total : Option Nat) (k l : TagKey) (cs : List Comment) : Prop :=
  number.isSome → total = none → l.last total? cs = totalIn k l cs

/-- A year that is set can be told: the key that it is not written to has no other one. -/
def KeepsYear (year : Option Int) (cs : List Comment) : Prop :=
  ∀ y ∈ year, ∀ z ∈ otherYear cs, z = y

theorem or_totalLeft_iff {number total : Option Nat} {k l : TagKey} :
    total.or (totalLeft number k l cs) = total.or (totalIn k l cs) ↔ KeepsTotal number total k l cs := by
  unfold KeepsTotal
  cases total with
  | some n => simp
  | none => cases number <;> simp [totalLeft]

theorem otherYear_or_iff {year : Option Int} :
    (if year.isSome then (otherYear cs).or year else yearIn cs) = year.or (yearIn cs) ↔
      KeepsYear year cs := by
  unfold KeepsYear
  cases year with
  | none => simp
  | some y => cases otherYear cs <;> simp

end TagFields

/-- After a write that succeeds, the file is read as the record from before with the values in it. Only the totals
and the year can be others, and each of them is right exactly if what the file says of it lies apart from what is
replaced. -/
theorem TagStore.read_written_iff (hflac : t.flac p = .ok flac) (hclean : f.Clean)
    (hwrite : embedded.write t p f = .ok (s', t')) :
    ∃ u v, embedded.read t p = .ok u ∧ s'.read t' p = .ok v ∧
      { v with trackTotal := none, discTotal := none, year := none } =
        { u.withFields f with trackTotal := none, discTotal := none, year := none } ∧
      (v.trackTotal = (u.withFields f).trackTotal ↔
        TagFields.KeepsTotal f.trackNumber f.trackTotal .trackNumber .trackTotal flac.comments) ∧
      (v.discTotal = (u.withFields f).discTotal ↔
        TagFields.KeepsTotal f.discNumber f.discTotal .discNumber .discTotal flac.comments) ∧
      (v.year = (u.withFields f).year ↔ TagFields.KeepsYear f.year flac.comments) := by
  have hbefore := read_flac (s := embedded) rfl hflac
  refine ⟨_, _, hbefore, read_written rfl hflac hclean hwrite, ?_⟩
  rw [TagFields.told_applyFields hclean]
  exact ⟨rfl, TagFields.or_totalLeft_iff, TagFields.or_totalLeft_iff, TagFields.otherYear_or_iff⟩

/-- Values that are written into FLAC files are told. A year is left out, as there may be another one beside it. -/
theorem TagStore.embedded_sets (hclean : f.Clean) (hset : f.isEmpty = false) (hyear : f.year = none) :
    embedded.Sets f := by
  intro written t p s' t' hwrite
  obtain ⟨hcheck, -, -⟩ := write_ok hwrite
  obtain ⟨flac, hflac, -⟩ := FileTree.fits_of_check hset hcheck
  refine ⟨_, read_written rfl hflac hclean hwrite, ?_⟩
  rw [TagFields.told_applyFields hclean]
  simp only [Track.withFields, ← Option.or_assoc, Option.or_self, hyear, Option.none_or]

/-- A file with some keyed texts. -/
def taggedFiles (cs : List Comment) : FileTree :=
  { nodes := [(["a.flac"], .file (FlacFile.silent 44100 0 (some cs)).encode)] }

/-- What is read from it after a write. -/
def rereads (cs : List Comment) (f : TagFields) : Except ServiceFailure Track := do
  let (s', t') ← TagStore.embedded.write (taggedFiles cs) ⟨"a.flac"⟩ f
  s'.read t' ⟨"a.flac"⟩

theorem exists_of_rereads {v : Track} (h : rereads cs f = .ok v) :
    ∃ s' t', TagStore.embedded.write (taggedFiles cs) ⟨"a.flac"⟩ f = .ok (s', t') ∧
      s'.read t' ⟨"a.flac"⟩ = .ok v := by
  unfold rereads at h
  cases hwrite : TagStore.embedded.write (taggedFiles cs) ⟨"a.flac"⟩ f with
  | error e => simp [hwrite, Bind.bind, Except.bind] at h
  | ok w => exact ⟨w.1, w.2, rfl, by simpa [hwrite, Bind.bind, Except.bind] using h⟩

/-- The third of twelve tracks, by its keyed texts. -/
def thirdOfTwelve : List Comment :=
  [⟨"TITLE", "A"⟩, ⟨"ARTIST", "Q"⟩, ⟨"TRACKNUMBER", "3/12"⟩, ⟨"DATE", "1999-03-01"⟩]

/-- Its file. -/
def thirdFlac : FlacFile := .silent 44100 0 (some thirdOfTwelve)

/-- What is read from the file. -/
def thirdTrack : Track :=
  { path := ⟨"a.flac"⟩, title := some "A", artist := some "Q", trackNumber := some 3
    trackTotal := some 12, year := some 1999, length := some 0 }

/-- Values for the fourth of the tracks, from another year. -/
def fourthFields : TagFields :=
  { title := some "B", trackNumber := some 4, trackTotal := some 12, year := some 2001 }

theorem third_runs :
    (taggedFiles thirdOfTwelve).flac ⟨"a.flac"⟩ = .ok thirdFlac ∧ otherYear thirdFlac.comments = none ∧
      TagStore.embedded.read (taggedFiles thirdOfTwelve) ⟨"a.flac"⟩ = .ok thirdTrack ∧
      rereads thirdOfTwelve fourthFields = .ok (thirdTrack.withFields fourthFields) ∧
      rereads thirdOfTwelve { trackNumber := some 4 } =
        .ok { thirdTrack with trackNumber := some 4, trackTotal := none } := by decide +kernel

/-- With the total written beside the number, all values are told. -/
theorem TagStore.read_written_iff_fourth : ∃ s' t' v,
    embedded.write (taggedFiles thirdOfTwelve) ⟨"a.flac"⟩ fourthFields = .ok (s', t') ∧
      s'.read t' ⟨"a.flac"⟩ = .ok v ∧ v.title = some "B" ∧ v.artist = some "Q" ∧
      v.trackTotal = some 12 ∧ v.year = some 2001 := by
  obtain ⟨hflac, hother, hbefore, hafter, -⟩ := third_runs
  obtain ⟨s', t', hwrite, -⟩ := exists_of_rereads hafter
  have hclean : fourthFields.Clean := by
    constructor <;> simp [fourthFields, TagFields.CleanText, TagFields.InWord, word32]
    decide
  obtain ⟨u, v, hu, hv, hsame, htotal, -, hyear⟩ := read_written_iff hflac hclean hwrite
  obtain rfl := Except.ok.inj (hbefore.symm.trans hu)
  have htitle := congrArg Track.title hsame
  have hartist := congrArg Track.artist hsame
  refine ⟨s', t', v, hwrite, hv, htitle, hartist, htotal.mpr ?_, hyear.mpr ?_⟩
  · exact fun _ hnone => absurd hnone (by decide)
  · intro y _ z hz
    rw [hother] at hz
    cases hz

/-- A number that is written takes the total away that stood behind the old one. -/
theorem TagStore.total_not_kept :
    ¬ ∀ (t t' : FileTree) (p : FilePath) (f : TagFields) (s' : TagStore) (flac : FlacFile) (u : Track),
      t.flac p = .ok flac → f.Clean → embedded.read t p = .ok u →
        embedded.write t p f = .ok (s', t') → s'.read t' p = .ok (u.withFields f) := by
  intro hall
  obtain ⟨hflac, -, hbefore, -, hafter⟩ := third_runs
  obtain ⟨s', t', hwrite, hread⟩ := exists_of_rereads hafter
  have hclean : TagFields.Clean { trackNumber := some 4 } := by
    constructor <;> simp [TagFields.CleanText, TagFields.InWord, word32]
  have hkept := hall _ _ _ _ _ _ _ hflac hclean hbefore hwrite
  have htotal := congrArg Track.trackTotal (Except.ok.inj (hread.symm.trans hkept))
  cases htotal

end MusicImport
