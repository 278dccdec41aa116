import MusicImport.Proofs.Library.SafeNames

/-! Cleaning a name a second time. Blanks are dropped from a name before the dots at its end, so a blank that
stands before these dots stays, and only the next cleaning drops it. -/
namespace MusicImport

variable {c : Char} {cs before after : List Char}

/-- A safe name that begins with no blank, ends in no dot and is no device in any case. -/
structure IsCleanName (name : String) : Prop extends IsSafeName name where
  start : ∀ c ∈ name.toList.head?, Text.isBlank c = false
  no_dot : ∀ before, name.toList ≠ before ++ ['.']
  no_device : ∀ device ∈ deviceNames, name.toList.map Char.toUpper ≠ device.toList

/-- White space that is no control character. -/
def isSpace (c : Char) : Bool := Text.isBlank c && !Text.isControl c

/-- A text with dots behind a space at its end, where more spaces may follow but something else stands before. -/
def EndsInSpacedDots (space : Char → Bool) (cs : List Char) : Prop :=
  ∃ before gap dots after, cs = before ++ gap :: (dots ++ after) ∧ (∃ c ∈ before, space c = false) ∧
    space gap ∧ dots ≠ [] ∧ (∀ c ∈ dots, c = '.') ∧ ∀ c ∈ after, space c

/-- A character, or what stands in its place in a name. -/
def maskChar (c : Char) : Char := if isForbidden c then '_' else c

theorem maskChar_of_allowed (h : isForbidden c = false) : maskChar c = c := by simp [maskChar, h]

theorem cleanName_eq (cs : List Char) :
    cleanName cs = (Text.trimChars (cs.map maskChar)).rdropWhile (· == '.') := rfl

theorem isBlank_maskChar (c : Char) : Text.isBlank (maskChar c) = isSpace c := by
  unfold maskChar
  split
  next h =>
    have : isSpace c = false := by
      by_cases hcontrol : Text.isControl c
      · simp [isSpace, hcontrol]
      · simp only [isForbidden, hcontrol, Bool.or_false, Bool.or_eq_true, decide_eq_true_eq] at h
        rcases h with (((((((rfl | rfl) | rfl) | rfl) | rfl) | rfl) | rfl) | rfl) | rfl <;> decide
    rw [this]
    decide
  next h =>
    have hcontrol : Text.isControl c = false := by simp_all [isForbidden]
    simp [isSpace, hcontrol]

theorem maskChar_eq_dot : maskChar c = '.' ↔ c = '.' := by
  unfold maskChar
  split
  next h =>
    refine ⟨fun hc => absurd hc (by decide), ?_⟩
    rintro rfl
    exact absurd h (by decide)
  · rfl

/-- Characters that are replaced are neither spaces nor dots, and become neither. -/
theorem endsInSpacedDots_map (cs : List Char) :
    EndsInSpacedDots Text.isBlank (cs.map maskChar) ↔ EndsInSpacedDots isSpace cs := by
  constructor
  · rintro ⟨before, gap, dots, after, hcs, ⟨d, hd, hblank⟩, hgap, hdots, hdot, hafter⟩
    obtain ⟨before', behind, rfl, rfl, hbehind⟩ := List.map_eq_append_iff.mp hcs
    obtain ⟨gap', rest, rfl, rfl, hrest⟩ := List.map_eq_cons_iff.mp hbehind
    obtain ⟨dots', after', rfl, rfl, rfl⟩ := List.map_eq_append_iff.mp hrest
    obtain ⟨e, he, rfl⟩ := List.mem_map.mp hd
    refine ⟨before', gap', dots', after', rfl, ⟨e, he, isBlank_maskChar e ▸ hblank⟩,
      isBlank_maskChar gap' ▸ hgap, by simpa using hdots, ?_, ?_⟩
    · exact fun c hc => maskChar_eq_dot.mp (hdot _ (List.mem_map_of_mem hc))
    · exact fun c hc => isBlank_maskChar c ▸ hafter _ (List.mem_map_of_mem hc)
  · rintro ⟨before, gap, dots, after, rfl, ⟨d, hd, hspace⟩, hgap, hdots, hdot, hafter⟩
    refine ⟨before.map maskChar, maskChar gap, dots.map maskChar, after.map maskChar, by simp,
      ⟨maskChar d, List.mem_map_of_mem hd, isBlank_maskChar d ▸ hspace⟩, isBlank_maskChar gap ▸ hgap,
      by simpa using hdots, ?_, ?_⟩
    · simpa [maskChar_eq_dot] using hdot
    · simpa [isBlank_maskChar] using hafter

/-- What is left without dots at the end of a trimmed text ends in a blank only if there were dots behind it. -/
theorem endsInSpacedDots_of_trimmed
    (h : (Text.trimChars cs).rdropWhile (· == '.') = before ++ [c]) (hc : Text.isBlank c) :
    EndsInSpacedDots Text.isBlank cs := by
  obtain ⟨start, stop, hsplit, -, hstop⟩ := Text.trimChars_split cs
  have hstart := Text.trimChars_start cs
  have htrim := List.rdropWhile_append_rtakeWhile (p := (· == '.')) (l := Text.trimChars cs)
  have hdot : ∀ d ∈ (Text.trimChars cs).rtakeWhile (· == '.'), d = '.' := fun d hd => by
    simpa using List.mem_rtakeWhile_imp hd
  rw [h] at htrim
  generalize (Text.trimChars cs).rtakeWhile (· == '.') = dots at htrim hdot
  rw [← htrim] at hsplit
  refine ⟨start ++ before, c, dots, stop, by simpa using hsplit, ?_, hc, ?_, hdot, hstop⟩
  · rw [← htrim] at hstart
    cases before with
    | nil => exact absurd (hstart c rfl) (by simp [hc])
    | cons d before => exact ⟨d, by simp, hstart d rfl⟩
  · rintro rfl
    rw [List.append_nil] at htrim
    exact Text.trimChars_end cs before hc htrim.symm

theorem trimmed_of_endsInSpacedDots (h : EndsInSpacedDots Text.isBlank cs) :
    ∃ before c, (Text.trimChars cs).rdropWhile (· == '.') = before ++ [c] ∧ Text.isBlank c := by
  obtain ⟨before, gap, dots, after, rfl, ⟨d, hd, hblank⟩, hgap, hdots, hdot, hafter⟩ := h
  -- The character before the blank stops the dropping at the start, and the last dot that at the end.
  have hstart : (before ++ gap :: (dots ++ after)).dropWhile Text.isBlank =
      before.dropWhile Text.isBlank ++ gap :: dots ++ after := by
    have hleft : (before.dropWhile Text.isBlank).isEmpty = false := by
      rw [List.isEmpty_eq_false_iff]
      exact fun hnil => absurd (List.dropWhile_eq_nil_iff.mp hnil d hd) (by simp [hblank])
    rw [List.dropWhile_append, hleft]
    simp
  have hkept : (before.dropWhile Text.isBlank ++ gap :: dots).rdropWhile Text.isBlank =
      before.dropWhile Text.isBlank ++ gap :: dots := by
    refine List.rdropWhile_eq_self_iff.mpr fun hne => ?_
    rw [List.getLast_append_of_ne_nil hne (List.cons_ne_nil _ _), List.getLast_cons hdots,
      hdot _ (List.getLast_mem hdots)]
    decide
  have hnodot : ¬ (gap == '.') := by
    intro hdot
    rw [eq_of_beq hdot] at hgap
    exact absurd hgap (by decide)
  refine ⟨before.dropWhile Text.isBlank, gap, ?_, hgap⟩
  rw [Text.trimChars_eq, hstart, Text.rdropWhile_append_of_pos hafter, hkept, List.append_cons,
    Text.rdropWhile_append_of_pos fun e he => beq_iff_eq.mpr (hdot e he)]
  exact List.rdropWhile_concat_neg _ _ _ hnodot

/-- The blank that dots were behind of is left at the end. -/
theorem cleanName_ends_blank_iff (cs : List Char) :
    (∃ before c, cleanName cs = before ++ [c] ∧ Text.isBlank c) ↔ EndsInSpacedDots isSpace cs := by
  rw [← endsInSpacedDots_map, cleanName_eq]
  refine ⟨?_, trimmed_of_endsInSpacedDots⟩
  rintro ⟨before, c, h, hc⟩
  exact endsInSpacedDots_of_trimmed h hc

theorem cleanName_start (cs : List Char) : ∀ c ∈ (cleanName cs).head?, Text.isBlank c = false := by
  intro c hc
  obtain ⟨rest, hrest⟩ : cleanName cs <+: Text.trimChars (cs.map maskChar) := List.rdropWhile_prefix _ _
  refine Text.trimChars_start (cs.map maskChar) c ?_
  rw [← hrest, List.head?_append, hc]
  rfl

theorem isDeviceName_iff (cs : List Char) :
    isDeviceName cs = true ↔ ∃ device ∈ deviceNames, cs.map Char.toUpper = device.toList := by
  simp only [isDeviceName, List.contains_iff_mem]
  constructor
  · exact fun h => ⟨_, h, (String.toList_ofList).symm⟩
  · rintro ⟨device, hdevice, heq⟩
    rwa [heq, String.ofList_toList]

/-- Letters and digits are all that a device name has. -/
theorem not_mem_deviceName (h : isDeviceName cs = true) (hc : Text.isBlank c ∨ c = '_' ∨ c = '.') : c ∉ cs := by
  intro hmem
  obtain ⟨device, hdevice, hupper⟩ := (isDeviceName_iff cs).mp h
  have hsame : c.toUpper = c := by
    obtain hblank | rfl | rfl := hc
    · have hall : ∀ n ∈ Text.blankCodes, (Char.ofNat n).toUpper = Char.ofNat n := by decide +kernel
      have hcode := hall _ (Text.mem_blankCodes hblank)
      rwa [Char.ofNat_toNat] at hcode
    · rfl
    · rfl
  have hnames : ∀ device ∈ deviceNames,
      device.toList.all (fun d => !Text.isBlank d && d != '_' && d != '.') = true := by
    decide +kernel
  have hd := List.all_eq_true.mp (hnames device hdevice) c (by
    rw [← hupper, ← hsame]
    exact List.mem_map_of_mem hmem)
  obtain ⟨⟨hblank, hline⟩, hdot⟩ : (Text.isBlank c = false ∧ c ≠ '_') ∧ c ≠ '.' := by simpa using hd
  obtain hc | hc | hc := hc
  · exact absurd hc (by simp [hblank])
  · exact hline hc
  · exact hdot hc

/-- What a name comes from. -/
theorem safeNameChars_cases (cs : List Char) :
    (isDeviceName (cleanName cs) = true ∧ safeNameChars cs = '_' :: cleanName cs) ∨
      ((cleanName cs = [] ∨ cleanName cs = ['.', '.']) ∧ safeNameChars cs = ['_']) ∨
      (isDeviceName (cleanName cs) = false ∧ safeNameChars cs = cleanName cs) := by
  unfold safeNameChars
  dsimp only
  split
  next h => exact .inl ⟨h, rfl⟩
  next h =>
    split
    next hempty => exact .inr (.inl ⟨by simpa using hempty, rfl⟩)
    · exact .inr (.inr ⟨by simpa using h, rfl⟩)

/-- A blank at the end of a name is not put there by what comes after cleaning. -/
theorem safeNameChars_ends_blank_iff (hc : Text.isBlank c) :
    safeNameChars cs = before ++ [c] ↔ cleanName cs = before ++ [c] := by
  have hline : c ≠ '_' := by
    rintro rfl
    exact absurd hc (by decide)
  have hdot : c ≠ '.' := by
    rintro rfl
    exact absurd hc (by decide)
  have hmem : c ∈ before ++ [c] := by simp
  obtain ⟨hdevice, hname⟩ | ⟨hempty, hname⟩ | ⟨-, hname⟩ := safeNameChars_cases cs
  · have hnot := not_mem_deviceName hdevice (.inl hc)
    constructor <;> intro h
    · rw [← h, hname] at hmem
      exact absurd ((List.mem_cons.mp hmem).resolve_left hline) hnot
    · exact absurd (h ▸ hmem) hnot
  · constructor <;> intro h
    · rw [← h, hname] at hmem
      exact absurd (List.mem_singleton.mp hmem) hline
    · obtain hnil | hdots := hempty
      · simp [hnil] at h
      · rw [← h, hdots] at hmem
        simp [hdot] at hmem
  · rw [hname]

theorem isCleanName_ofList (h : IsSafeName (String.ofList cs))
    (hstart : ∀ c ∈ cs.head?, Text.isBlank c = false) (hdot : ∀ before, cs ≠ before ++ ['.'])
    (hdevice : isDeviceName cs = false) : IsCleanName (String.ofList cs) where
  toIsSafeName := h
  start := by rwa [String.toList_ofList]
  no_dot := by rwa [String.toList_ofList]
  no_device := by
    rw [String.toList_ofList]
    intro device hmem heq
    rw [(isDeviceName_iff cs).mpr ⟨device, hmem, heq⟩] at hdevice
    cases hdevice

theorem safeNameChars_clean (cs : List Char) : IsCleanName (String.ofList (safeNameChars cs)) := by
  have hsafe := safeNameChars_safe cs
  have hdot : ∀ before, cleanName cs ≠ before ++ ['.'] := Text.dropEndWhile_ne rfl _
  have hstart : ∀ c ∈ some '_', Text.isBlank c = false := by
    intro c hc
    obtain rfl := Option.mem_some_iff.mp hc
    decide
  have hline {rest : List Char} : isDeviceName ('_' :: rest) = false := by
    rw [Bool.eq_false_iff]
    exact fun h => not_mem_deviceName h (.inr (.inl rfl)) (.head _)
  obtain ⟨-, hname⟩ | ⟨-, hname⟩ | ⟨hdevice, hname⟩ := safeNameChars_cases cs
  · rw [hname] at hsafe ⊢
    refine isCleanName_ofList hsafe hstart (fun before h => ?_) hline
    cases before with
    | nil => cases h
    | cons c before => exact hdot before (List.cons.inj h).2
  · rw [hname] at hsafe ⊢
    exact isCleanName_ofList hsafe hstart (fun before h => by simpa using congrArg List.getLast? h) hline
  · rw [hname] at hsafe ⊢
    exact isCleanName_ofList hsafe (cleanName_start cs) hdot hdevice

/-- The characters of a safe name are not replaced. -/
theorem map_maskChar (h : IsSafeName (String.ofList cs)) : cs.map maskChar = cs := by
  have hallowed : ∀ c ∈ cs, maskChar c = c := by
    intro c hc
    obtain ⟨hmem, hcontrol⟩ := h.allowed c (by rwa [String.toList_ofList])
    refine maskChar_of_allowed ?_
    simp only [List.mem_cons, List.not_mem_nil, or_false, not_or] at hmem
    simp [isForbidden, hmem, hcontrol]
  exact (List.map_congr_left hallowed).trans cs.map_id

/-- Cleaning changes a clean name if it ends in a blank. -/
theorem safeNameChars_eq_self_iff (h : IsCleanName (String.ofList cs)) :
    safeNameChars cs = cs ↔ ¬ ∃ before c, cs = before ++ [c] ∧ Text.isBlank c := by
  have hmask := map_maskChar h.toIsSafeName
  have hstart := h.start
  have hdot := h.no_dot
  rw [String.toList_ofList] at hstart hdot
  constructor
  · rintro hself ⟨before, c, hcs, hc⟩
    have hclean : cleanName cs = cs := ((safeNameChars_ends_blank_iff hc).mp (hself.trans hcs)).trans hcs.symm
    have hprefix : cleanName cs <+: Text.trimChars cs := by
      rw [cleanName_eq, hmask]
      exact List.rdropWhile_prefix _ _
    rw [hclean] at hprefix
    have htrim : Text.trimChars cs = cs := (Text.isInfix_trimChars cs).eq_of_length_le hprefix.length_le
    exact Text.trimChars_end cs before hc (htrim.trans hcs)
  · intro hstop
    have htrim : Text.trimChars cs = cs := Text.trimChars_eq_self hstart fun before c hcs => by
      simpa using fun hc => hstop ⟨before, c, hcs, hc⟩
    have hclean : cleanName cs = cs := by
      rw [cleanName_eq, hmask, htrim]
      refine Text.rdropWhile_eq_self fun before c hcs => ?_
      simpa using fun hc : c = '.' => hdot before (hc ▸ hcs)
    have hdevice : isDeviceName cs = false := by
      rw [Bool.eq_false_iff]
      intro hdevice
      obtain ⟨device, hmem, heq⟩ := (isDeviceName_iff cs).mp hdevice
      exact h.no_device device hmem (by rwa [String.toList_ofList])
    have hne : cs ≠ [] := by
      rintro rfl
      exact h.nonempty rfl
    have hup : cs ≠ ['.', '.'] := hdot ['.']
    simp [safeNameChars, hclean, hdevice, hne, hup]

/-- Whatever a text is: its name is not empty, holds no forbidden character, begins with no blank, ends in no dot
and is no device in any case. It ends in a blank just where dots stand behind a space at the end of the text, and
just there cleaning it again changes it. -/
theorem safeName_clean (s : String) :
    IsCleanName (safeName s) ∧
      ((∃ before c, (safeName s).toList = before ++ [c] ∧ Text.isBlank c) ↔ EndsInSpacedDots isSpace s.toList) ∧
      (safeName (safeName s) = safeName s ↔ ¬ EndsInSpacedDots isSpace s.toList) := by
  have hclean := safeNameChars_clean s.toList
  have hends : (∃ before c, safeNameChars s.toList = before ++ [c] ∧ Text.isBlank c) ↔
      EndsInSpacedDots isSpace s.toList := by
    rw [← cleanName_ends_blank_iff]
    exact exists_congr fun before => exists_congr fun c =>
      and_congr_left fun hc => safeNameChars_ends_blank_iff hc
  refine ⟨hclean, ?_, ?_⟩
  · rwa [safeName, String.toList_ofList]
  · rw [safeName, safeName, String.toList_ofList, String.ofList_inj, safeNameChars_eq_self_iff hclean, hends]

/-- A blank before a dot stays until the name is cleaned again. -/
theorem name_cleaned_again : ¬ ∀ s : String, safeName (safeName s) = safeName s := by
  intro h
  have hname := h "a ."
  revert hname
  decide +kernel

end MusicImport
