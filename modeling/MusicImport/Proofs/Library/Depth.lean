import MusicImport.Proofs.Library.SafeNames
import MusicImport.Proofs.Text.Replacing

/-! How deep a file goes in the library. A template fixes the number of directories: values are put into it
without separators. The one that is not is the artist of a compilation, whose separators add to them. -/
namespace MusicImport
open Text

variable {sep c : Char} {cs word before after : List Char} {t : PathTemplate} {f : TagFields} {source : FilePath}

theorem length_splitChars (sep : Char) (cs : List Char) : (splitChars sep cs).length = cs.count sep + 1 := by
  induction cs with
  | nil => rfl
  | cons c cs ih =>
    simp only [splitChars]
    split
    next hc => rw [hc, List.length_cons, ih, List.count_cons_self]
    next hc =>
      rw [List.count_cons_of_ne hc, ← ih]
      cases hs : splitChars sep cs with
      | nil => exact absurd hs (splitChars_ne_nil sep cs)
      | cons piece pieces => rfl

theorem count_cutDirectory (cs : List Char) :
    (cutDirectory cs).1.count '/' + (cutDirectory cs).2.count '/' = cs.count '/' := by
  unfold cutDirectory
  split
  next before file hcut =>
    rw [FilePath.cutLast?_eq hcut]
    simp only [List.count_append, List.count_cons_self, List.count_nil]
    omega
  · simp

theorem count_insertDisc (disc : Nat) (cs : List Char) :
    (insertDisc disc cs).count '/' = cs.count '/' + 1 := by
  have hdisc : ("Disc " ++ toString disc).toList.count '/' = 0 := by
    rw [List.count_eq_zero, String.toList_append, List.mem_append, not_or]
    exact ⟨by decide, FilePath.slash_not_mem_digits disc⟩
  rw [← count_cutDirectory cs, insertDisc]
  simp only [List.count_append, List.count_cons_self, hdisc]
  omega

theorem cutAt?_eq (h : cutAt? word cs = some (before, after)) : cs = before ++ after ∧ word <+: after := by
  induction cs generalizing before with
  | nil =>
    simp only [cutAt?] at h
    split at h
    next hword =>
      cases h
      exact ⟨rfl, by simp_all⟩
    · cases h
  | cons c cs ih =>
    simp only [cutAt?] at h
    split at h
    next hword =>
      cases h
      exact ⟨rfl, List.isPrefixOf_iff_prefix.mp hword⟩
    · obtain ⟨⟨start, rest⟩, hcut, hcons⟩ := Option.map_eq_some_iff.mp h
      cases hcons
      obtain ⟨rfl, hrest⟩ := ih hcut
      exact ⟨rfl, hrest⟩

theorem count_insertArtist (artist : String) (cs : List Char) :
    (insertArtist artist cs).count '/' = cs.count '/' + artist.toList.count '/' := by
  have hdash : " - ".toList.count '/' = 0 := by decide
  rw [← count_cutDirectory cs, insertArtist]
  dsimp only
  split
  next number rest hcut =>
    obtain ⟨hfile, title, rfl⟩ := cutAt?_eq hcut
    have htitle : (" - ".toList ++ title).drop 3 = title := rfl
    rw [hfile, htitle]
    simp only [List.count_append, hdash]
    omega
  · simp only [List.count_append, hdash]
    omega

theorem slash_not_mem_flatValue (f : TagFields) (source : FilePath) (p : Placeholder) :
    '/' ∉ p.flatValue f source := by
  intro hslash
  obtain ⟨c, -, hc⟩ := List.mem_map.mp hslash
  split at hc
  · exact absurd hc (by decide)
  next hplain => exact hplain (by simp [hc])

theorem count_fillPlaceholders (f : TagFields) (source : FilePath) (template : List Char) :
    (fillPlaceholders f source template).count '/' = template.count '/' := by
  have hmark (p : Placeholder) : '/' ∉ p.mark := by cases p <;> decide
  unfold fillPlaceholders
  induction Placeholder.all generalizing template with
  | nil => rfl
  | cons p rest ih =>
    rw [List.foldl_cons, ih]
    exact count_replaceAll (hmark p) (slash_not_mem_flatValue f source p) template

theorem length_filter_nonempty (pieces : List (List Char)) :
    (pieces.filter (!·.isEmpty)).length + pieces.count [] = pieces.length := by
  induction pieces with
  | nil => rfl
  | cons piece pieces ih =>
    cases piece with
    | nil =>
      rw [List.filter_cons_of_neg (by simp), List.count_cons_self, List.length_cons]
      omega
    | cons c piece =>
      rw [List.filter_cons_of_pos (by simp), List.count_cons_of_ne (by simp), List.length_cons, List.length_cons]
      omega

theorem length_components_safePath (hc : c ∈ cs) (hslash : c ≠ '/') :
    (safePath cs).components.length + (splitChars '/' cs).count [] = cs.count '/' + 1 := by
  rw [(safePath_ofPieces hc hslash).components, List.length_map, List.length_map, ← length_splitChars]
  exact length_filter_nonempty _

namespace PathTemplate

/-- The template that is filled in for a file. -/
def chosen (t : PathTemplate) (f : TagFields) : String := if f.album.isSome then t.template else singleton

/-- How many pieces a template has between its separators, those of the file name among them. -/
def segments (t : PathTemplate) (f : TagFields) : Nat := (splitChars '/' (t.chosen f).toList).length

/-- Whether a directory for the disc is put in. -/
def hasDisc (t : PathTemplate) (f : TagFields) : Bool := t.discFolder && f.album.isSome && isMultiDisc f

/-- The separators of an artist that is put into the file name. -/
def artistSeparators (f : TagFields) : Nat :=
  if f.album.isSome && isCompilation f then (f.artist.getD "Unknown Artist").toList.count '/' else 0

/-- The text of the path with the extension of its source. -/
def filled (t : PathTemplate) (f : TagFields) (source : FilePath) : List Char :=
  t.expand f source ++ '.' :: (source.extension?.getD "flac").toList

/-- The pieces that are left out of the path since nothing stands between their separators. -/
def emptyPieces (t : PathTemplate) (f : TagFields) (source : FilePath) : Nat :=
  (splitChars '/' (t.filled f source)).count []

theorem slash_not_mem_extension (source : FilePath) : '/' ∉ (source.extension?.getD "flac").toList := by
  cases hext : source.extension? with
  | none => decide
  | some ext =>
    obtain ⟨name, hname, hcut⟩ := Option.bind_eq_some_iff.mp hext
    exact fun hslash => FilePath.slash_not_mem_fileName hname (FilePath.mem_cutName (.inr ⟨ext, hcut, hslash⟩))

theorem count_filled (t : PathTemplate) (f : TagFields) (source : FilePath) :
    (t.filled f source).count '/' + 1 =
      t.segments f + (if t.hasDisc f then 1 else 0) + artistSeparators f := by
  have hext : ('.' :: (source.extension?.getD "flac").toList).count '/' = 0 := by
    rw [List.count_cons_of_ne (by decide), List.count_eq_zero.mpr (slash_not_mem_extension source)]
  have htemplate := count_fillPlaceholders f source (t.chosen f).toList
  rw [filled, List.count_append, hext, segments, length_splitChars, ← htemplate, chosen, expand]
  unfold hasDisc artistSeparators
  split <;> split <;> simp only [count_insertArtist, count_insertDisc] <;> omega

end PathTemplate

/-- A file goes as many directories deep as its template has separators, and one deeper for its disc; pieces that
have nothing in them are left out. Only the artist of a compilation adds directories, one for each separator in
its name, and it makes the path deeper than the template allows if there are more of them than pieces left
out. -/
theorem PathTemplate.resolve_depth (t : PathTemplate) (f : TagFields) (source : FilePath) :
    (t.resolve f source).components.length + t.emptyPieces f source =
        t.segments f + (if t.hasDisc f then 1 else 0) + artistSeparators f ∧
      ((t.resolve f source).components.length ≤ t.segments f + (if t.hasDisc f then 1 else 0) ↔
        artistSeparators f ≤ t.emptyPieces f source) := by
  have hdot : '.' ∈ t.filled f source := by simp [filled]
  have hlength := length_components_safePath hdot (by decide)
  have hcount := t.count_filled f source
  have hdepth : (t.resolve f source).components.length + t.emptyPieces f source =
      t.segments f + (if t.hasDisc f then 1 else 0) + artistSeparators f := hlength.trans hcount
  exact ⟨hdepth, by omega⟩

/-- The artist of a compilation adds a directory. -/
theorem PathTemplate.artist_adds_directory : ¬ ∀ (t : PathTemplate) (f : TagFields) (source : FilePath),
    (t.resolve f source).components.length ≤ t.segments f + (if t.hasDisc f then 1 else 0) := by
  intro h
  have hartist := h ⟨"\x7bTitle\x7d", true⟩
    { title := some "T", artist := some "A/B", album := some "X", albumArtist := some "Various Artists" } ⟨"a.flac"⟩
  revert hartist
  decide +kernel

end MusicImport
