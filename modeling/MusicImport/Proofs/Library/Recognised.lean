import MusicImport.Grouping.Plan
import MusicImport.Proofs.Library.CleanNames
import MusicImport.Proofs.Library.Depth

/-! Whether a placed file is still recognised as audio. Its extension goes behind whatever the template and the tags
put into the file name, and the name is cut there unless nothing stands before: then the dot is at its start, and
there is no extension. -/
namespace MusicImport

open Text

variable {c : Char} {cs xs ys ext rest value : List Char} {f : TagFields} {source : FilePath}

/-- What stands behind the last separator. -/
def lastPiece (cs : List Char) : List Char := (cutDirectory cs).2

theorem lastPiece_behind (h : '/' ∉ ys) (xs : List Char) : lastPiece (xs ++ '/' :: ys) = ys := by
  unfold lastPiece cutDirectory
  rw [FilePath.cutLast?_append h]

theorem lastPiece_of_not_mem (h : '/' ∉ cs) : lastPiece cs = cs := by
  unfold lastPiece cutDirectory
  split
  next before file hcut =>
    rw [FilePath.cutLast?_eq hcut] at h
    simp at h
  · rfl

/-- A text is its last piece, with a separator before it if it has one. -/
theorem exists_lastPiece (cs : List Char) :
    '/' ∉ lastPiece cs ∧ (cs = lastPiece cs ∨ ∃ dir, cs = dir ++ '/' :: lastPiece cs) := by
  by_cases hslash : '/' ∈ cs
  · obtain ⟨file, dir, hreverse, hfile⟩ := List.eq_append_cons_of_mem (List.mem_reverse.mpr hslash)
    have hcs : cs = dir.reverse ++ '/' :: file.reverse := by
      rw [← List.reverse_reverse cs, hreverse]
      simp
    have hnot : '/' ∉ file.reverse := fun hmem => hfile (List.mem_reverse.mp hmem)
    have hlast : lastPiece cs = file.reverse := by rw [hcs, lastPiece_behind hnot]
    rw [hlast]
    exact ⟨hnot, .inr ⟨dir.reverse, hcs⟩⟩
  · rw [lastPiece_of_not_mem hslash]
    exact ⟨hslash, .inl rfl⟩

/-- Text without separators is added to the last piece. -/
theorem lastPiece_append (h : '/' ∉ ys) (xs : List Char) : lastPiece (xs ++ ys) = lastPiece xs ++ ys := by
  obtain ⟨hlast, hwhole | ⟨dir, hdir⟩⟩ := exists_lastPiece xs
  · have hnot : '/' ∉ lastPiece xs ++ ys := by simp [hlast, h]
    have hcut := lastPiece_of_not_mem hnot
    rwa [← hwhole] at hcut ⊢
  · have hnot : '/' ∉ lastPiece xs ++ ys := by simp [hlast, h]
    have hcut := lastPiece_behind hnot dir
    rwa [← List.cons_append, ← List.append_assoc, ← hdir] at hcut

theorem splitChars_lastPiece (cs : List Char) : ∃ before, splitChars '/' cs = before ++ [lastPiece cs] := by
  obtain ⟨hlast, hwhole | ⟨dir, hdir⟩⟩ := exists_lastPiece cs
  · refine ⟨[], ?_⟩
    rw [← hwhole] at hlast ⊢
    exact splitChars_of_not_mem hlast
  · refine ⟨splitChars '/' dir, ?_⟩
    have hsplit : splitChars '/' (dir ++ '/' :: lastPiece cs) =
        splitChars '/' dir ++ splitChars '/' (lastPiece cs) := splitChars_append dir (lastPiece cs)
    rw [splitChars_of_not_mem hlast, ← hdir] at hsplit
    exact hsplit

theorem slash_not_mem_mark (p : Placeholder) : '/' ∉ p.mark := by cases p <;> decide

/-- A word without separators is replaced in each piece by itself. -/
theorem lastPiece_replaceAll (hword : '/' ∉ c :: rest) (hvalue : '/' ∉ value) (cs : List Char) :
    lastPiece (replaceAll (c :: rest) value cs) = replaceAll (c :: rest) value (lastPiece cs) := by
  have hplain (xs : List Char) (h : '/' ∉ xs) : '/' ∉ replaceAll (c :: rest) value xs := by
    rw [← List.count_eq_zero, count_replaceAll hword hvalue, List.count_eq_zero]
    exact h
  obtain ⟨hlast, hwhole | ⟨dir, hdir⟩⟩ := exists_lastPiece cs
  · rw [← hwhole] at hlast ⊢
    exact lastPiece_of_not_mem (hplain cs hlast)
  · have hrest : '/' ∉ rest := fun h => hword (.tail _ h)
    have hother : ¬ c :: rest <+: '/' :: lastPiece cs := fun h =>
      hword (by rw [(List.cons_prefix_cons.mp h).1]; exact .head _)
    have hcut : replaceAll (c :: rest) value (dir ++ '/' :: lastPiece cs) =
        replaceAll (c :: rest) value dir ++ replaceAll (c :: rest) value ('/' :: lastPiece cs) :=
      replaceAll_append hrest value dir (lastPiece cs)
    rw [replaceAll_other hother, ← hdir] at hcut
    rw [hcut]
    exact lastPiece_behind (hplain _ hlast) _

/-- The file name is what the last piece of the template is filled in with. -/
theorem lastPiece_fillPlaceholders (f : TagFields) (source : FilePath) (template : List Char) :
    lastPiece (fillPlaceholders f source template) = fillPlaceholders f source (lastPiece template) := by
  unfold fillPlaceholders
  induction Placeholder.all generalizing template with
  | nil => rfl
  | cons p rest ih =>
    rw [List.foldl_cons, List.foldl_cons, ih]
    congr 1
    exact lastPiece_replaceAll (slash_not_mem_mark p) (slash_not_mem_flatValue f source p) template

theorem lastPiece_insertDisc (disc : Nat) (cs : List Char) : lastPiece (insertDisc disc cs) = lastPiece cs :=
  lastPiece_behind (exists_lastPiece cs).1 _

/-- The artist of a compilation goes into the file name with a dash behind it. -/
theorem dash_mem_insertArtist (artist : String) (cs : List Char) : '-' ∈ lastPiece (insertArtist artist cs) := by
  have hfile : '/' ∉ (cutDirectory cs).2 := (exists_lastPiece cs).1
  have hdash (ys : List Char) (h : '/' ∉ ys) (xs : List Char) : '-' ∈ lastPiece (xs ++ " - ".toList ++ ys) := by
    have hnot : '/' ∉ " - ".toList ++ ys := by
      rw [List.mem_append, not_or]
      exact ⟨by decide, h⟩
    rw [List.append_assoc, lastPiece_append hnot]
    exact List.mem_append_right _ (List.mem_append_left _ (by decide))
  unfold insertArtist
  dsimp only
  split
  next number title hcut =>
    apply hdash
    intro hmem
    rw [(cutAt?_eq hcut).1] at hfile
    exact hfile (List.mem_append_right _ (List.mem_of_mem_drop hmem))
  · exact hdash _ hfile _

namespace PathTemplate

variable {t : PathTemplate}

/-- Something else than spaces goes into the file name: the artist of a compilation, or what the last piece of the
template is filled in with. -/
def NamesFile (t : PathTemplate) (f : TagFields) (source : FilePath) : Prop :=
  (f.album.isSome && isCompilation f) = true ∨
    ∃ c ∈ fillPlaceholders f source (lastPiece (t.chosen f).toList), isSpace c = false

instance (t : PathTemplate) (f : TagFields) (source : FilePath) : Decidable (t.NamesFile f source) :=
  -- a search through the text, not through all characters
  @instDecidableOr _ _ inferInstance (List.decidableBEx _ _)

theorem dash_mem_expand (h : (f.album.isSome && isCompilation f) = true) (t : PathTemplate) (source : FilePath) :
    '-' ∈ lastPiece (t.expand f source) := by
  unfold expand
  rw [if_pos h]
  exact dash_mem_insertArtist _ _

/-- The directory for a disc is no part of the file name. -/
theorem lastPiece_expand (h : (f.album.isSome && isCompilation f) = false) (t : PathTemplate) (source : FilePath) :
    lastPiece (t.expand f source) = fillPlaceholders f source (lastPiece (t.chosen f).toList) := by
  have hdisc (b : Bool) (disc : Nat) (cs : List Char) :
      lastPiece (if b then insertDisc disc cs else cs) = lastPiece cs := by
    cases b with
    | true => exact lastPiece_insertDisc disc cs
    | false => rfl
  rw [← lastPiece_fillPlaceholders, expand, if_neg (by simp [h]), hdisc]
  rfl

theorem namesFile_iff (t : PathTemplate) (f : TagFields) (source : FilePath) :
    t.NamesFile f source ↔ ∃ c ∈ lastPiece (t.expand f source), isSpace c = false := by
  unfold NamesFile
  cases hcompilation : f.album.isSome && isCompilation f with
  | true => exact iff_of_true (.inl rfl) ⟨'-', dash_mem_expand hcompilation t source, by decide⟩
  | false => simp [lastPiece_expand hcompilation t source]

end PathTemplate

/-- A character that stays in a name wherever it stands: none that is replaced, trimmed or cut at. -/
def IsPlain (c : Char) : Prop := isForbidden c = false ∧ isBlank c = false ∧ c ≠ '.'

instance (c : Char) : Decidable (IsPlain c) := inferInstanceAs (Decidable (_ ∧ _))

/-- Below 160 only the capital letters from A to Z have small forms. -/
theorem lowerChar_of_small (hsmall : c.toNat < 160) (hletter : c.toNat < 65 ∨ 90 < c.toNat) : lowerChar c = [c] := by
  have hranges : ∀ r ∈ lowercaseRanges, r.first = 65 ∧ r.last = 90 ∨ 160 ≤ r.first := by decide +kernel
  have hnone : lowercaseRanges.findSome? (·.map? c.toNat) = none := by
    refine List.findSome?_eq_none_iff.mpr fun r hr => if_neg ?_
    rintro ⟨hfirst, hlast, -⟩
    have hrange := hranges r hr
    omega
  rw [lowerChar, if_neg (by omega), lowerCode, hnone, Option.getD_none, Char.ofNat_toNat]

/-- Characters that are not plain have no small form of their own. -/
theorem lowerChar_of_not_plain (h : ¬ IsPlain c) : lowerChar c = [c] ∧ c ≠ 'Σ' := by
  by_cases hblank : isBlank c
  · obtain ⟨-, -, -, hlower, hsigma⟩ := blank_neutral hblank
    exact ⟨hlower, hsigma⟩
  · have hkept : isForbidden c = true ∨ c = '.' := by
      unfold IsPlain at h
      by_cases hdot : c = '.'
      · exact .inr hdot
      · left
        simpa [hblank, hdot] using h
    have hcode : c.toNat < 160 ∧ (c.toNat < 65 ∨ 90 < c.toNat) := by
      rcases hkept with hforbidden | rfl
      · simp only [isForbidden, isControl, Bool.or_eq_true, Bool.and_eq_true, decide_eq_true_eq] at hforbidden
        rcases hforbidden with
          ((((((((rfl | rfl) | rfl) | rfl) | rfl) | rfl) | rfl) | rfl) | rfl) | hlow | ⟨hbetween, hhigh⟩
        all_goals first | decide | omega
      · decide
    constructor
    · exact lowerChar_of_small hcode.1 hcode.2
    · rintro rfl
      exact absurd hcode.1 (by decide)

theorem mem_lowerFrom (hlower : lowerChar c = [c]) (hsigma : c ≠ 'Σ') (hc : c ∈ cs) (before : List Char) :
    c ∈ lowerFrom before cs := by
  induction cs generalizing before with
  | nil => cases hc
  | cons d cs ih =>
    rw [lowerFrom]
    rcases List.mem_cons.mp hc with rfl | hc
    · rw [if_neg hsigma, hlower]
      exact List.mem_append_left _ (.head _)
    · exact List.mem_append_right _ (ih hc _)

/-- The extension of an audio file has characters, and they are plain. -/
theorem audio_extension (h : isAudioFile source = true) :
    ∃ e, source.extension? = some e ∧ e.toList ≠ [] ∧ ∀ c ∈ e.toList, IsPlain c := by
  unfold isAudioFile at h
  obtain ⟨e, he⟩ : ∃ e, source.extension? = some e := by
    cases hext : source.extension? with
    | none => simp [hext] at h
    | some e => exact ⟨e, rfl⟩
  have hmem : lowercase e ∈ audioExtensions := by
    rw [he] at h
    exact List.contains_iff_mem.mp h
  refine ⟨e, he, fun hnil => ?_, fun c hc => ?_⟩
  · have hempty : lowercase e = "" := by
      rw [lowercase, hnil]
      rfl
    rw [hempty] at hmem
    exact absurd hmem (by decide)
  · by_contra hnot
    obtain ⟨hlower, hsigma⟩ := lowerChar_of_not_plain hnot
    have hall : (audioExtensions.all fun name => name.toList.all fun c => IsPlain c) = true := by decide
    have hsame : c ∈ (lowercase e).toList := by
      rw [lowercase, String.toList_ofList]
      exact mem_lowerFrom hlower hsigma hc []
    have hplain := List.all_eq_true.mp (List.all_eq_true.mp hall _ hmem) c hsame
    exact hnot (of_decide_eq_true hplain)

section

variable (hne : ext ≠ []) (hplain : ∀ c ∈ ext, IsPlain c)

include hne hplain

/-- An extension stays at the end of a name, and only spaces before it go. -/
theorem cleanName_extension (stem : List Char) :
    cleanName (stem ++ '.' :: ext) = (stem.map maskChar).dropWhile isBlank ++ '.' :: ext := by
  have hmask : (stem ++ '.' :: ext).map maskChar = stem.map maskChar ++ '.' :: ext := by
    have hext : ext.map maskChar = ext.map id :=
      List.map_congr_left fun c hc => maskChar_of_allowed (hplain c hc).1
    rw [List.map_append, List.map_cons, hext, List.map_id]
    rfl
  have hstart : (stem.map maskChar ++ '.' :: ext).dropWhile isBlank =
      (stem.map maskChar).dropWhile isBlank ++ '.' :: ext := by
    have hdot : ('.' :: ext).dropWhile isBlank = '.' :: ext := List.dropWhile_cons_of_neg (by decide)
    rw [List.dropWhile_append, hdot]
    split
    next hempty => rw [List.isEmpty_iff.mp hempty, List.nil_append]
    · rfl
  have hend : ∀ before c, (stem.map maskChar).dropWhile isBlank ++ '.' :: ext = before ++ [c] → c ∈ ext := by
    intro before c heq
    have hlast := congrArg List.getLast? heq
    rw [List.getLast?_append_of_ne_nil _ (List.cons_ne_nil _ _), List.getLast?_cons_of_ne_nil hne,
      List.getLast?_concat] at hlast
    exact List.mem_of_getLast? hlast
  rw [cleanName_eq, hmask, trimChars_eq, hstart,
    rdropWhile_eq_self fun before c heq => (hplain c (hend before c heq)).2.1,
    rdropWhile_eq_self fun before c heq => beq_false_of_ne (hplain c (hend before c heq)).2.2]

theorem safeNameChars_extension (stem : List Char) :
    safeNameChars (stem ++ '.' :: ext) = (stem.map maskChar).dropWhile isBlank ++ '.' :: ext := by
  have hclean := cleanName_extension hne hplain stem
  have hdot : '.' ∈ cleanName (stem ++ '.' :: ext) := by
    rw [hclean]
    exact List.mem_append_right _ (.head _)
  obtain ⟨hdevice, -⟩ | ⟨hempty, -⟩ | ⟨-, hname⟩ := safeNameChars_cases (stem ++ '.' :: ext)
  · exact absurd hdot (not_mem_deviceName hdevice (.inr (.inr rfl)))
  · -- the last character would be a dot, but an extension has none
    obtain ⟨c, hc⟩ := List.exists_mem_of_ne_nil ext hne
    have hmem : c ∈ cleanName (stem ++ '.' :: ext) := by
      rw [hclean]
      exact List.mem_append_right _ (.tail _ hc)
    have hnot := (hplain c hc).2.2
    rcases hempty with hnil | hdots
    · rw [hnil] at hmem
      cases hmem
    · rw [hdots] at hmem
      simp [hnot] at hmem
  · rw [hname, hclean]

omit hne in
theorem cutName_extension (stem : List Char) :
    (FilePath.cutName (String.ofList (stem ++ '.' :: ext))).2 =
      if stem = [] then none else some (String.ofList ext) := by
  have hdot : '.' ∉ ext := fun h => (hplain '.' h).2.2 rfl
  unfold FilePath.cutName
  rw [String.toList_ofList, FilePath.cutLast?_append hdot]
  by_cases hstem : stem = []
  · simp [hstem]
  · simp [hstem]

end

namespace PathTemplate

variable {t : PathTemplate}

/-- The file name is the safe name of the last piece, which has the extension behind it. -/
theorem resolve_fileName (t : PathTemplate) (f : TagFields) (source : FilePath) :
    (t.resolve f source).fileName? = some (String.ofList (safeNameChars
      (lastPiece (t.expand f source) ++ '.' :: (source.extension?.getD "flac").toList))) := by
  have hdot : '.' ∈ t.filled f source := by simp [filled]
  have hext : '/' ∉ '.' :: (source.extension?.getD "flac").toList := by
    have hnot := slash_not_mem_extension source
    simpa using hnot
  have hlast : lastPiece (t.filled f source) =
      lastPiece (t.expand f source) ++ '.' :: (source.extension?.getD "flac").toList := lastPiece_append hext _
  obtain ⟨before, hsplit⟩ := splitChars_lastPiece (t.filled f source)
  have hkept : (splitChars '/' (t.filled f source)).filter (!·.isEmpty) =
      before.filter (!·.isEmpty) ++ [lastPiece (t.filled f source)] := by
    rw [hsplit, List.filter_append, hlast, List.filter_cons_of_pos (by simp)]
    rfl
  have hcomponents : (t.resolve f source).components = _ := (safePath_ofPieces hdot (by decide)).components
  rw [hkept, List.map_append, List.map_append] at hcomponents
  rw [← hlast]
  exact FilePath.fileName?_eq_some.mpr ⟨_, hcomponents⟩

/-- A placed file has the extension of its source, and so is an audio file like it, just if something else than
spaces goes into its name. Otherwise it has no extension at all. -/
theorem resolve_recognised (t : PathTemplate) (f : TagFields) {source : FilePath} (h : isAudioFile source = true) :
    (t.resolve f source).extension? = (if t.NamesFile f source then source.extension? else none) ∧
      (isAudioFile (t.resolve f source) = true ↔ t.NamesFile f source) := by
  obtain ⟨e, he, hne, hplain⟩ := audio_extension h
  have hspaces : ((lastPiece (t.expand f source)).map maskChar).dropWhile isBlank = [] ↔
      ¬ t.NamesFile f source := by
    rw [List.dropWhile_eq_nil_iff, namesFile_iff]
    simp [isBlank_maskChar]
  have hextension : (t.resolve f source).extension? =
      if t.NamesFile f source then source.extension? else none := by
    rw [FilePath.extension?, resolve_fileName, he]
    simp only [Option.bind_some, Option.getD_some]
    rw [safeNameChars_extension hne hplain, cutName_extension hplain, String.ofList_toList]
    by_cases hnames : t.NamesFile f source
    · rw [if_neg fun hnil => hspaces.mp hnil hnames, if_pos hnames]
    · rw [if_pos (hspaces.mpr hnames), if_neg hnames]
  refine ⟨hextension, ?_⟩
  unfold isAudioFile at h ⊢
  rw [hextension]
  by_cases hnames : t.NamesFile f source
  · rw [if_pos hnames]
    exact iff_of_true h hnames
  · rw [if_neg hnames]
    exact iff_of_false Bool.false_ne_true hnames

/-- A title may be blank where a number goes before it. -/
theorem resolve_recognised_numbered :
    let f : TagFields := { title := some " ", album := some "X" }
    isAudioFile ⟨"in/a.FLAC"⟩ = true ∧ (PathTemplate.mk standard true).NamesFile f ⟨"in/a.FLAC"⟩ ∧
      ((PathTemplate.mk standard true).resolve f ⟨"in/a.FLAC"⟩).extension? = some "FLAC" ∧
      isAudioFile ((PathTemplate.mk standard true).resolve f ⟨"in/a.FLAC"⟩) = true := by
  intro f
  have haudio : isAudioFile ⟨"in/a.FLAC"⟩ = true := by decide +kernel
  have hnames : (PathTemplate.mk standard true).NamesFile f ⟨"in/a.FLAC"⟩ := by decide +kernel
  obtain ⟨hext, hrecognised⟩ := resolve_recognised (.mk standard true) f haudio
  rw [if_pos hnames] at hext
  exact ⟨haudio, hnames, hext.trans (by decide +kernel), hrecognised.mpr hnames⟩

/-- A single file with a blank title gets a name that is nothing but its extension behind a dot, and no extension. -/
theorem blank_title_not_recognised : ¬ ∀ (t : PathTemplate) (f : TagFields) (source : FilePath),
    isAudioFile source = true →
      isAudioFile (t.resolve f source) = true ∧ (t.resolve f source).extension? = source.extension? := by
  intro h
  have hblank := (h ⟨standard, true⟩ { title := some "", artist := some "A" } ⟨"in/a.flac"⟩ (by decide +kernel)).1
  revert hblank
  decide +kernel

/-- What a template says itself between the placeholders stays, so a template with a dash in its file name never
gives up the extension. All the templates that go by a name are such. -/
theorem namesFile_of_dash (h : '-' ∈ lastPiece (t.chosen f).toList) (source : FilePath) : t.NamesFile f source := by
  have hmark (p : Placeholder) : '-' ∉ p.mark := by cases p <;> decide
  have hkept (cs : List Char) (hdash : '-' ∈ cs) : '-' ∈ fillPlaceholders f source cs := by
    unfold fillPlaceholders
    induction Placeholder.all generalizing cs with
    | nil => exact hdash
    | cons p rest ih =>
      apply ih
      exact mem_replaceAll (hmark p) _ hdash
  exact .inr ⟨'-', hkept _ h, by decide⟩

theorem namesFile_preset {name template : String} (h : preset? name = some template) (halbum : f.album.isSome = true)
    (discFolder : Bool) (source : FilePath) : (PathTemplate.mk template discFolder).NamesFile f source := by
  apply namesFile_of_dash
  have hchosen : (PathTemplate.mk template discFolder).chosen f = template := if_pos halbum
  rw [hchosen]
  unfold preset? at h
  dsimp only at h
  split at h
  · cases h
    decide +kernel
  · split at h
    · cases h
      decide +kernel
    · split at h
      · cases h
        decide +kernel
      · cases h

end PathTemplate
end MusicImport
