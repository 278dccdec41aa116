import MusicImport.Library.Template
import MusicImport.Proofs.Files.Entries
import MusicImport.Proofs.Text.Normal

/-! Where a file goes in the library. Whatever a template and the tags of a file say, the path is made of names
that are plain names on every file system, so it stays below the directory that it is joined to. -/
namespace MusicImport

/-- A name that is no step to another directory, without separators and other characters that file systems
keep for themselves. -/
structure IsSafeName (name : String) : Prop where
  nonempty : name ≠ ""
  not_here : name ≠ "."
  not_up : name ≠ ".."
  allowed : ∀ c ∈ name.toList,
    c ∉ ['/', '\\', '<', '>', ':', '"', '|', '?', '*'] ∧ Text.isControl c = false

theorem IsSafeName.isName {name : String} (h : IsSafeName name) : IsName name :=
  ⟨h.nonempty, h.not_here, h.not_up, fun hc => (h.allowed '/' hc).1 (.head _)⟩

theorem not_forbidden_of_mem_cleanName {c : Char} {cs : List Char} (h : c ∈ cleanName cs) :
    isForbidden c = false := by
  have hend {p : Char → Bool} {l : List Char} (hc : c ∈ Text.dropEndWhile p l) : c ∈ l :=
    (List.rdropWhile_prefix p l).subset hc
  have hstart := (List.dropWhile_sublist Text.isBlank).subset (hend (hend h))
  obtain ⟨d, -, rfl⟩ := List.mem_map.mp hstart
  split
  · decide
  next hd => simpa using hd

theorem allowed_of_not_forbidden {c : Char} (h : isForbidden c = false) :
    c ∉ ['/', '\\', '<', '>', ':', '"', '|', '?', '*'] ∧ Text.isControl c = false := by
  simp only [isForbidden, Bool.or_eq_false_iff, decide_eq_false_iff_not] at h
  simp only [List.mem_cons, List.not_mem_nil, or_false]
  tauto

/-- Where a name is safe: it has a character, does not end in a dot, and none of its characters is forbidden. -/
theorem isSafeName_ofList {cs : List Char} (hne : cs ≠ []) (hdot : ∀ before, cs ≠ before ++ ['.'])
    (hc : ∀ c ∈ cs, isForbidden c = false) : IsSafeName (String.ofList cs) := by
  have hnames (s : String) (h : String.ofList cs = s) : cs = s.toList := by
    rw [← h, String.toList_ofList]
  refine ⟨fun h => hne (hnames _ h), fun h => hdot [] (hnames _ h), fun h => hdot ['.'] (hnames _ h), ?_⟩
  rw [String.toList_ofList]
  exact fun c hmem => allowed_of_not_forbidden (hc c hmem)

/-- Every text gets a safe name. Dots go last, so that the blanks dropped before cannot leave one at the end. -/
theorem safeNameChars_safe (cs : List Char) : IsSafeName (String.ofList (safeNameChars cs)) := by
  have hclean : ∀ c ∈ cleanName cs, isForbidden c = false := fun c => not_forbidden_of_mem_cleanName
  have hdot : ∀ before, cleanName cs ≠ before ++ ['.'] := Text.dropEndWhile_ne rfl _
  unfold safeNameChars
  dsimp only
  split
  · refine isSafeName_ofList (List.cons_ne_nil _ _) (fun before h => ?_) ?_
    · cases before with
      | nil => simp at h
      | cons c before => exact hdot before (List.cons.inj h).2
    · rintro c (_ | ⟨_, hc⟩)
      · decide
      · exact hclean c hc
  · split
    · exact isSafeName_ofList (by simp) (fun before h => by simpa using congrArg List.getLast? h)
        (by simpa using (by decide : isForbidden '_' = false))
    next hname =>
      simp only [Bool.or_eq_true, List.isEmpty_iff, decide_eq_true_eq, not_or] at hname
      exact isSafeName_ofList hname.1 hdot hclean

namespace FilePath

/-- A text with something else than separators in it has a piece. -/
theorem exists_mem_splitChars {sep c : Char} {cs : List Char} (hc : c ∈ cs) (hsep : c ≠ sep) :
    ∃ piece ∈ Text.splitChars sep cs, c ∈ piece := by
  induction cs with
  | nil => cases hc
  | cons d cs ih =>
    simp only [Text.splitChars]
    split
    next hd =>
      have hrest : c ∈ cs := (List.mem_cons.mp hc).resolve_left fun h => hsep (h.trans hd)
      obtain ⟨piece, hpiece, hmem⟩ := ih hrest
      exact ⟨piece, .tail _ hpiece, hmem⟩
    · cases hs : Text.splitChars sep cs with
      | nil => exact absurd hs (Text.splitChars_ne_nil sep cs)
      | cons first rest =>
        obtain rfl | hrest := List.mem_cons.mp hc
        · exact ⟨_, .head _, .head _⟩
        · obtain ⟨piece, hpiece, hmem⟩ := ih hrest
          rw [hs] at hpiece
          obtain rfl | hpiece := List.mem_cons.mp hpiece
          · exact ⟨_, .head _, .tail _ hmem⟩
          · exact ⟨piece, .tail _ hpiece, hmem⟩

end FilePath

theorem safeName_of_mem_pieces {cs : List Char} {name : String}
    (h : name ∈ ((Text.splitChars '/' cs).filter (!·.isEmpty)).map fun piece => String.ofList (safeNameChars piece)) :
    IsSafeName name := by
  obtain ⟨piece, -, rfl⟩ := List.mem_map.mp h
  exact safeNameChars_safe piece

/-- The safe path of a text has a name for each piece that is not empty, if there is anything but separators in it. -/
theorem safePath_ofPieces {c : Char} {cs : List Char} (hc : c ∈ cs) (hslash : c ≠ '/') :
    (safePath cs).MadeOf (((Text.splitChars '/' cs).filter (!·.isEmpty)).map
      fun piece => String.ofList (safeNameChars piece)) := by
  obtain ⟨piece, hpiece, hmem⟩ := FilePath.exists_mem_splitChars hc hslash
  have hne : piece ≠ [] := List.ne_nil_of_mem hmem
  exact FilePath.madeOf_ofNames (List.ne_nil_of_mem (List.mem_map_of_mem
    (List.mem_filter.mpr ⟨hpiece, by simpa using hne⟩))) fun name hname => (safeName_of_mem_pieces hname).isName

theorem safePath_madeOf {c : Char} {cs : List Char} (hc : c ∈ cs) (hslash : c ≠ '/') :
    ∃ names, (∀ name ∈ names, IsSafeName name) ∧ (safePath cs).MadeOf names :=
  ⟨_, fun _ => safeName_of_mem_pieces, safePath_ofPieces hc hslash⟩

/-- Whatever the template, the tags and the source are: a file goes to a relative path of one or more safe
names, with nothing else between the separators. Below any directory the path adds just these names, so none
leads out of it. -/
theorem PathTemplate.resolve_safe (t : PathTemplate) (f : TagFields) (source : FilePath) :
    (t.resolve f source).isAbsolute = false ∧
      ∃ names, names ≠ [] ∧ (∀ name ∈ names, IsSafeName name) ∧
        (t.resolve f source).pieces = names ∧ (t.resolve f source).components = names.map .name ∧
        ∀ library : FilePath, (library.join (t.resolve f source)).components =
          library.components ++ names.map .name := by
  have hdot : '.' ∈ t.expand f source ++ '.' :: (source.extension?.getD "flac").toList := by simp
  obtain ⟨names, hsafe, hmade⟩ := safePath_madeOf hdot (by decide)
  refine ⟨hmade.not_absolute, names, hmade.ne_nil, hsafe, hmade.pieces, hmade.components, ?_⟩
  intro library
  rw [← hmade.components]
  exact FilePath.components_join hmade library

/-- A template that climbs, and an album that is named by two dots. -/
example : (PathTemplate.mk "../\x7bAlbum\x7d/ .\x7bTitle\x7d" true).resolve
    { album := some "..", title := some "a:b" } ⟨"/in/x."⟩ = ⟨"_/_/.a_b"⟩ := by decide +kernel

end MusicImport
