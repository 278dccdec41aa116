import Mathlib.Data.List.TakeWhile
import MusicImport.Grouping.DiscMarker
import MusicImport.Proofs.Journal.Timestamp
import MusicImport.Proofs.Text.Normal

/-! Directory names that mark a disc, read back from their parts. The letters of a name tell where its marker
word is: a number stands behind it, and no letter follows. So a name has one reading at most. The reading
fails only where an underscore stands right before the marker word, which then does not start a word. -/
namespace MusicImport

namespace DiscMarker

variable {last : Option Char} {cs ds rest : List Char} {c : Char}

/-- The small letter that a character is a form of. -/
def smallLetter (c : Char) : Char :=
  if c.toNat = 0x17F then 's' else if c.toNat = 0x212A then 'k' else c.toLower

/-- A letter of a marker word, or any other of its kind. -/
def isLetter (c : Char) : Bool := (smallLetter c).isLower

/-- The code points of letters: large, small, the long s and the sign of the unit kelvin. -/
def letterCodes : List Nat := List.range' 65 26 ++ List.range' 97 26 ++ [0x17F, 0x212A]

theorem mem_letterCodes (h : isLetter c) : c.toNat ∈ letterCodes := by
  have hcases : 65 ≤ c.toNat ∧ c.toNat ≤ 90 ∨ 97 ≤ c.toNat ∧ c.toNat ≤ 122 ∨ c.toNat = 0x17F ∨
      c.toNat = 0x212A := by
    unfold isLetter smallLetter at h
    split at h
    next hlong => omega
    split at h
    next hkelvin => omega
    unfold Char.toLower at h
    split at h
    next hupper =>
      have hrange : 65 ≤ c.toNat ∧ c.toNat ≤ 90 := by
        simpa [UInt32.le_iff_toNat_le] using hupper
      omega
    next =>
      have hlower : (c.val ≥ 97 && c.val ≤ 122) = true := h
      have hrange : 97 ≤ c.toNat ∧ c.toNat ≤ 122 := by
        simpa [UInt32.le_iff_toNat_le] using hlower
      omega
  simp only [letterCodes, List.mem_append, List.mem_range'_1, List.mem_cons, List.not_mem_nil, or_false]
  omega

theorem not_isLower_toLower (h : c.toNat = 0x17F ∨ c.toNat = 0x212A) : c.toLower.isLower = false := by
  rw [← Char.ofNat_toNat c]
  rcases h with h | h <;> rw [h] <;> decide

theorem matchesLetter_iff {l : Char} (hl : l.isLower) : matchesLetter l c ↔ smallLetter c = l := by
  have hother : c.toNat = 0x17F ∨ c.toNat = 0x212A → c.toLower ≠ l := by
    rintro h rfl
    rw [not_isLower_toLower h] at hl
    cases hl
  unfold matchesLetter smallLetter
  by_cases hlong : c.toNat = 0x17F
  · simp [hlong, hother (.inl hlong), eq_comm]
  · by_cases hkelvin : c.toNat = 0x212A
    · simp [hkelvin, hother (.inr hkelvin), eq_comm]
    · simp [hlong, hkelvin]

/-- No letter is anything else that the form of a name knows, and every letter is part of a word. -/
theorem letter_plain (h : isLetter c) : isSeparator c = false ∧ Text.isDecimal c = false ∧
    isClosing c = false ∧ Text.isWordChar c = true := by
  have hall : ∀ n ∈ letterCodes, isSeparator (Char.ofNat n) = false ∧ Text.isDecimal (Char.ofNat n) = false ∧
      isClosing (Char.ofNat n) = false ∧ Text.isWordChar (Char.ofNat n) = true := by decide +kernel
  have hc := hall _ (mem_letterCodes h)
  rwa [Char.ofNat_toNat] at hc

theorem not_isLetter (h : isSeparator c ∨ Text.isDecimal c ∨ isClosing c) : isLetter c = false := by
  by_contra hletter
  obtain ⟨hseparator, hdecimal, hclosing, -⟩ := letter_plain (Bool.not_eq_false _ ▸ hletter)
  simp [hseparator, hdecimal, hclosing] at h

/-- A text that is a marker word in some spelling. -/
def IsMarker (cs : List Char) : Prop := ∃ w ∈ words, cs.map smallLetter = w.toList

theorem isLower_of_mem_words {w : String} (hw : w ∈ words) : ∀ l ∈ w.toList, l.isLower := by
  have hwords : ∀ w ∈ words, w.toList.all Char.isLower := by decide
  exact List.all_eq_true.mp (hwords w hw)

theorem IsMarker.letters (h : IsMarker cs) : cs ≠ [] ∧ ∀ c ∈ cs, isLetter c := by
  have hwords : ∀ w ∈ words, w.toList ≠ [] := by decide
  obtain ⟨w, hw, hspelled⟩ := h
  constructor
  · rintro rfl
    exact hwords w hw hspelled.symm
  · intro c hc
    exact isLower_of_mem_words hw _ (hspelled ▸ List.mem_map_of_mem hc)

theorem afterWord?_eq_some {w : List Char} (hw : ∀ l ∈ w, l.isLower) :
    afterWord? w cs = some rest ↔ ∃ word, cs = word ++ rest ∧ word.map smallLetter = w := by
  induction w generalizing cs with
  | nil => simp [afterWord?]
  | cons l ls ih =>
    have ih (cs : List Char) := @ih cs fun l hl => hw l (.tail _ hl)
    cases cs with
    | nil =>
      constructor
      · intro h
        cases h
      · rintro ⟨word, hnil, hspelled⟩
        rw [List.nil_eq_append_iff] at hnil
        simp [hnil.1] at hspelled
    | cons c cs =>
      have hl := matchesLetter_iff (c := c) (hw l (.head _))
      rw [afterWord?]
      constructor
      · intro h
        split at h
        next hmatches =>
          obtain ⟨word, rfl, hspelled⟩ := (ih cs).mp h
          exact ⟨c :: word, rfl, by rw [List.map_cons, hspelled, hl.mp hmatches]⟩
        · cases h
      · rintro ⟨word, htext, hspelled⟩
        cases word with
        | nil => cases hspelled
        | cons d word =>
          obtain ⟨rfl, rfl⟩ := List.cons.inj htext
          obtain ⟨hfirst, hrest⟩ := List.cons.inj hspelled
          rw [if_pos (hl.mpr hfirst)]
          exact (ih _).mpr ⟨word, rfl, hrest⟩

theorem letterless_of_dropWhile {p : Char → Bool} (hp : ∀ c, p c → isLetter c = false)
    (h : ∀ c ∈ cs.dropWhile p, isLetter c = false) : ∀ c ∈ cs, isLetter c = false := by
  intro c hc
  rw [← List.takeWhile_append_dropWhile (p := p) (l := cs), List.mem_append] at hc
  rcases hc with hc | hc
  · exact hp c (List.mem_takeWhile_imp hc)
  · exact h c hc

/-- What stands behind a marker word holds no letter. -/
theorem number?_letterless (h : number? cs = some ds) : ∀ c ∈ cs, isLetter c = false := by
  have htail : (((cs.dropWhile isGap).dropWhile Text.isDecimal).dropWhile isClosing).dropWhile
      Text.isBlank = [] := by
    unfold number? at h
    dsimp only at h
    split at h
    · cases h
    next hparts =>
      simp only [Bool.or_eq_true, Bool.not_eq_true', not_or, Bool.not_eq_false, List.isEmpty_iff] at hparts
      exact hparts.2
  apply letterless_of_dropWhile (p := isGap)
  · intro c hgap
    exact not_isLetter (.inl (by simp [isSeparator, hgap]))
  apply letterless_of_dropWhile (p := Text.isDecimal)
  · exact fun c hdecimal => not_isLetter (.inr (.inl hdecimal))
  apply letterless_of_dropWhile (p := isClosing)
  · exact fun c hclosing => not_isLetter (.inr (.inr hclosing))
  apply letterless_of_dropWhile (p := Text.isBlank)
  · intro c hblank
    exact not_isLetter (.inl (by simp [isSeparator, isGap, hblank]))
  · simp [htail]

theorem digit_plain (h : c.isDigit) : Text.isDecimal c = true ∧ isGap c = false := by
  have hall : ∀ n ∈ List.range' 48 10, Text.isDecimal (Char.ofNat n) = true ∧
      isGap (Char.ofNat n) = false := by decide +kernel
  have hrange : 48 ≤ c.toNat ∧ c.toNat ≤ 57 := by
    simpa [Char.isDigit, UInt32.le_iff_toNat_le] using h
  have hc := hall c.toNat (List.mem_range'_1.mpr (by omega))
  rwa [Char.ofNat_toNat] at hc

theorem blank_plain (h : Text.isBlank c) : Text.isDecimal c = false ∧ isClosing c = false ∧
    Text.isWordChar c = false := by
  have hall : ∀ n ∈ Text.blankCodes, Text.isDecimal (Char.ofNat n) = false ∧
      isClosing (Char.ofNat n) = false ∧ Text.isWordChar (Char.ofNat n) = false := by decide +kernel
  have hc := hall _ (Text.mem_blankCodes h)
  rwa [Char.ofNat_toNat] at hc

/-- No separator is a letter or a digit, and only an underscore is part of a word. -/
theorem separator_plain (h : isSeparator c) :
    Text.isAlphanumeric c = false ∧ Text.isWordChar c = decide (c = '_') := by
  have hcases : Text.isBlank c ∨ c = '.' ∨ c = '_' ∨ c = '-' ∨ c = '[' ∨ c = '(' := by
    simpa [isSeparator, isGap, or_assoc] using h
  rcases hcases with hblank | rfl | rfl | rfl | rfl | rfl
  · have hne : c ≠ '_' := by
      rintro rfl
      exact absurd hblank (by decide)
    simp [(Text.blank_neutral hblank).1, (blank_plain hblank).2.2, hne]
  all_goals decide +kernel

theorem number?_parts {gap closing blanks : List Char} (hgap : ∀ c ∈ gap, isGap c)
    (hds : ∀ c ∈ ds, c.isDigit) (hne : ds ≠ []) (hclosing : ∀ c ∈ closing, isClosing c)
    (hblanks : ∀ c ∈ blanks, Text.isBlank c) : number? (gap ++ (ds ++ (closing ++ blanks))) = some ds := by
  have hdigits : ∀ c ∈ (ds ++ (closing ++ blanks)).head?, isGap c = false := by
    intro c hc
    rw [List.head?_append_of_ne_nil _ hne] at hc
    exact (digit_plain (hds c (List.mem_of_mem_head? hc))).2
  have htail : ∀ c ∈ (closing ++ blanks).head?, Text.isDecimal c = false := by
    intro c hc
    rcases List.mem_append.mp (List.mem_of_mem_head? hc) with hc | hc
    · have : c = ']' ∨ c = ')' := by simpa [isClosing] using hclosing c hc
      rcases this with rfl | rfl <;> decide +kernel
    · exact (blank_plain (hblanks c hc)).1
  have hend : ∀ c ∈ blanks.head?, isClosing c = false := fun c hc =>
    (blank_plain (hblanks c (List.mem_of_mem_head? hc))).2.1
  obtain ⟨-, hgapless⟩ := Text.span_append hgap hdigits
  obtain ⟨hnumeral, hrest⟩ := Text.span_append (fun c hc => (digit_plain (hds c hc)).1) htail
  obtain ⟨-, hopen⟩ := Text.span_append hclosing hend
  have hnothing : blanks.dropWhile Text.isBlank = [] := List.dropWhile_eq_nil_iff.mpr hblanks
  simp only [number?, hgapless, hnumeral, hrest, hopen, hnothing]
  simp [hne]

/-- A reading of a text: separators, a marker word that starts a word, and the rest, which the number is read
from. -/
structure Reads (last : Option Char) (cs separators marker rest : List Char) : Prop where
  text_eq : cs = separators ++ (marker ++ rest)
  separator : ∀ c ∈ separators, isSeparator c
  isMarker : IsMarker marker
  starts : (separators.getLast?.or last).any Text.isWordChar = false

/-- Right before a marker word stands no letter. -/
theorem letterless_last {last : Option Char} (h : last.any Text.isWordChar = false) :
    ∀ c ∈ last, isLetter c = false := by
  rintro c rfl
  by_contra hletter
  obtain ⟨-, -, -, hword⟩ := letter_plain (Bool.not_eq_false _ ▸ hletter)
  simp [hword] at h

theorem IsMarker.letter_head (h : IsMarker cs) (before : List Char) :
    ∀ c ∈ (cs.reverse ++ before).head?, isLetter c = true := by
  obtain ⟨hne, hletters⟩ := h.letters
  intro c hc
  rw [List.head?_append_of_ne_nil _ (by simpa using hne)] at hc
  exact hletters c (List.mem_reverse.mp (List.mem_of_mem_head? hc))

/-- The letters before the number are the marker word: a text is split in one way only. -/
theorem split_unique {before before' marker marker' rest' : List Char}
    (h : before ++ (marker ++ rest) = before' ++ (marker' ++ rest'))
    (hbefore : ∀ c ∈ before.getLast?, isLetter c = false)
    (hbefore' : ∀ c ∈ before'.getLast?, isLetter c = false)
    (hmarker : IsMarker marker) (hmarker' : IsMarker marker')
    (hrest : ∀ c ∈ rest, isLetter c = false) (hrest' : ∀ c ∈ rest', isLetter c = false) :
    before = before' ∧ marker = marker' ∧ rest = rest' := by
  have hreverse := congrArg List.reverse h
  simp only [List.reverse_append, List.append_assoc] at hreverse
  obtain ⟨hnumber, hnames⟩ := Text.append_unique (p := fun c => !isLetter c) hreverse
    (by simpa using hrest) (fun c hc => by simp [hmarker.letter_head _ c hc])
    (by simpa using hrest') (fun c hc => by simp [hmarker'.letter_head _ c hc])
  obtain ⟨hword, hfront⟩ := Text.append_unique hnames (by simpa using hmarker.letters.2)
    (by simpa using hbefore) (by simpa using hmarker'.letters.2) (by simpa using hbefore')
  exact ⟨List.reverse_inj.mp hfront, List.reverse_inj.mp hword, List.reverse_inj.mp hnumber⟩

theorem markerNumber?_eq_some : markerNumber? last cs = some ds ↔
    ∃ separators marker rest, Reads last cs separators marker rest ∧ number? rest = some ds := by
  constructor
  · intro h
    unfold markerNumber? at h
    dsimp only at h
    split at h
    · cases h
    next hstarts =>
      obtain ⟨w, hw, hnumber⟩ := List.exists_of_findSome?_eq_some h
      obtain ⟨rest, hafter, hnumber⟩ := Option.bind_eq_some_iff.mp hnumber
      obtain ⟨marker, hmarker, hspelled⟩ := (afterWord?_eq_some (isLower_of_mem_words hw)).mp hafter
      refine ⟨_, marker, rest, ⟨?_, ?_, ⟨w, hw, hspelled⟩, Bool.eq_false_iff.mpr hstarts⟩, hnumber⟩
      · rw [← hmarker, List.takeWhile_append_dropWhile]
      · exact fun c hc => List.mem_takeWhile_imp hc
  · rintro ⟨separators, marker, rest, hreads, hnumber⟩
    obtain ⟨rfl, hseparators, hmarker, hstarts⟩ := hreads
    have hhead : ∀ c ∈ (marker ++ rest).head?, isSeparator c = false := by
      intro c hc
      obtain ⟨hne, hletters⟩ := hmarker.letters
      rw [List.head?_append_of_ne_nil _ hne] at hc
      exact (letter_plain (hletters c (List.mem_of_mem_head? hc))).1
    obtain ⟨htake, hdrop⟩ := Text.span_append hseparators hhead
    unfold markerNumber?
    simp only [htake, hdrop, hstarts, Bool.false_eq_true, if_false]
    cases hfound : words.findSome? fun w => (afterWord? w.toList (marker ++ rest)).bind number? with
    | none =>
      obtain ⟨w, hw, hspelled⟩ := hmarker
      have hafter : afterWord? w.toList (marker ++ rest) = some rest :=
        (afterWord?_eq_some (isLower_of_mem_words hw)).mpr ⟨marker, rfl, hspelled⟩
      have hnone := List.findSome?_eq_none_iff.mp hfound w hw
      rw [hafter, Option.bind_some, hnumber] at hnone
      cases hnone
    | some ds' =>
      -- another word may be found first, but it ends at the same place
      obtain ⟨w, hw, hother⟩ := List.exists_of_findSome?_eq_some hfound
      obtain ⟨rest', hafter, hnumber'⟩ := Option.bind_eq_some_iff.mp hother
      obtain ⟨marker', htext, hspelled⟩ := (afterWord?_eq_some (isLower_of_mem_words hw)).mp hafter
      have htext : [] ++ (marker ++ rest) = [] ++ (marker' ++ rest') := htext
      obtain ⟨-, -, rfl⟩ := split_unique htext nofun nofun hmarker ⟨w, hw, hspelled⟩
        (number?_letterless hnumber) (number?_letterless hnumber')
      exact hnumber'.symm.trans hnumber

theorem getLast?_cons_or (c : Char) (cs : List Char) (last : Option Char) :
    (c :: cs).getLast?.or last = cs.getLast?.or (some c) := by
  rw [List.getLast?_cons]
  cases cs.getLast? <;> rfl

/-- Where no marker follows any shorter prefix, this one is found. -/
theorem scan?_eq_some {front : List Char} (hline : '\n' ∉ front)
    (hshorter : ∀ a b, front = a ++ b → b ≠ [] → markerNumber? (a.getLast?.or last) (b ++ cs) = none)
    (hcs : markerNumber? (front.getLast?.or last) cs = some ds) (hne : cs ≠ []) :
    scan? last (front ++ cs) = some ⟨front, ds⟩ := by
  induction front generalizing last with
  | nil =>
    obtain ⟨c, cs, rfl⟩ := List.exists_cons_of_ne_nil hne
    rw [List.getLast?_nil, Option.none_or] at hcs
    rw [List.nil_append, scan?, hcs]
  | cons c front ih =>
    have hnone : markerNumber? last (c :: (front ++ cs)) = none :=
      hshorter [] (c :: front) rfl (List.cons_ne_nil _ _)
    have hfront : c ≠ '\n' := fun h => hline (h ▸ .head _)
    have hrest : scan? (some c) (front ++ cs) = some ⟨front, ds⟩ := by
      apply ih (fun h => hline (.tail _ h))
      · intro a b hab hb
        rw [← getLast?_cons_or c a last]
        exact hshorter (c :: a) b (by rw [hab]; rfl) hb
      · rwa [← getLast?_cons_or c front last]
    rw [List.cons_append, scan?, hnone]
    simp [hfront, hrest]

theorem scan?_eq_none
    (h : ∀ a b, cs = a ++ b → b ≠ [] → markerNumber? (a.getLast?.or last) b = none) :
    scan? last cs = none := by
  induction cs generalizing last with
  | nil => rfl
  | cons c cs ih =>
    have hnone : markerNumber? last (c :: cs) = none := h [] (c :: cs) rfl (List.cons_ne_nil _ _)
    have hrest : scan? (some c) cs = none := by
      apply ih
      intro a b hab hb
      rw [← getLast?_cons_or c a last]
      exact h (c :: a) b (by rw [hab]; rfl) hb
    rw [scan?, hnone]
    simp [hrest]

end DiscMarker

open DiscMarker

/-- A directory name that is made to mark a disc: a prefix, separators, a marker word in any case, a gap, a
numeral with zeros in front up to a width, closing brackets and blanks. -/
structure DiscName where
  lead : List Char
  separators : List Char
  marker : List Char
  gap : List Char
  width : Nat
  number : Nat
  closing : List Char
  blanks : List Char
  lead_line : '\n' ∉ lead
  lead_end : ∀ c ∈ lead.getLast?, Text.isAlphanumeric c
  lead_apart : lead ≠ [] → separators ≠ []
  separators_all : ∀ c ∈ separators, isSeparator c
  isMarker : IsMarker marker
  gap_all : ∀ c ∈ gap, isGap c
  number_lt : number < word32
  closing_all : ∀ c ∈ closing, isClosing c
  blanks_all : ∀ c ∈ blanks, Text.isBlank c

namespace DiscName

/-- What the number is read from. -/
def tail (d : DiscName) : List Char :=
  d.gap ++ (Timestamp.padded d.width d.number ++ (d.closing ++ d.blanks))

def text (d : DiscName) : String :=
  String.ofList (d.lead ++ (d.separators ++ (d.marker ++ d.tail)))

theorem number?_tail (d : DiscName) : number? d.tail = some (Timestamp.padded d.width d.number) :=
  number?_parts d.gap_all (fun _ hc => Timestamp.isDigit_of_mem_padded hc) (Timestamp.padded_ne_nil _ _)
    d.closing_all d.blanks_all

theorem getLast?_front (d : DiscName) : (d.lead ++ d.separators).getLast? = d.separators.getLast? := by
  rw [List.getLast?_append]
  by_cases hlead : d.lead = []
  · simp [hlead]
  · rw [List.getLast?_eq_some_getLast (d.lead_apart hlead), Option.some_or]

/-- The last separator starts the marker word unless it is an underscore. -/
theorem starts_iff (d : DiscName) :
    d.separators.getLast?.any Text.isWordChar = false ↔ d.separators.getLast? ≠ some '_' := by
  cases hlast : d.separators.getLast? with
  | none => simp
  | some c =>
    have hword := (separator_plain (d.separators_all c (List.mem_of_getLast? hlast))).2
    simp [hword]

/-- Wherever the name is cut, a reading of the second part has its marker word, and what stands between is
separators. -/
theorem reading_cut (d : DiscName) {a b ds : List Char}
    (hcut : d.lead ++ (d.separators ++ (d.marker ++ d.tail)) = a ++ b)
    (hread : markerNumber? (a.getLast?.or none) b = some ds) :
    d.separators.getLast? ≠ some '_' ∧
      ∃ between, d.lead ++ d.separators = a ++ between ∧ ∀ c ∈ between, isSeparator c := by
  obtain ⟨between, marker, rest, hreads, hnumber⟩ := markerNumber?_eq_some.mp hread
  obtain ⟨rfl, hbetween, hmarker, hstarts⟩ := hreads
  rw [Option.or_none, ← List.getLast?_append] at hstarts
  have hlast : ∀ c ∈ (d.lead ++ d.separators).getLast?, isLetter c = false := by
    intro c hc
    rw [getLast?_front] at hc
    exact not_isLetter (.inl (d.separators_all c (List.mem_of_getLast? hc)))
  have htext : (d.lead ++ d.separators) ++ (d.marker ++ d.tail) = (a ++ between) ++ (marker ++ rest) := by
    simpa using hcut
  obtain ⟨hfront, -, -⟩ := split_unique htext hlast (letterless_last hstarts) d.isMarker hmarker
    (number?_letterless d.number?_tail) (number?_letterless hnumber)
  rw [← hfront, getLast?_front] at hstarts
  exact ⟨d.starts_iff.mp hstarts, between, hfront, hbetween⟩

theorem ofName?_text (d : DiscName) (h : d.separators.getLast? ≠ some '_') :
    ofName? d.text = some ⟨d.lead, Timestamp.padded d.width d.number⟩ := by
  have hmarker := d.isMarker.letters.1
  rw [ofName?, text, String.toList_ofList]
  apply scan?_eq_some d.lead_line
  · intro a b hab hb
    rw [Option.eq_none_iff_forall_ne_some]
    intro ds hread
    obtain ⟨-, between, hfront, hbetween⟩ := d.reading_cut (by rw [hab, List.append_assoc]) hread
    -- the prefix ends in no separator, but what is read before the marker word would hold its end
    rw [hab, List.append_assoc, List.append_cancel_left_eq] at hfront
    have hlast : b.getLast hb ∈ between := hfront ▸ List.mem_append_left _ (List.getLast_mem hb)
    have hend : Text.isAlphanumeric (b.getLast hb) := by
      apply d.lead_end
      rw [hab, List.getLast?_append, List.getLast?_eq_some_getLast hb]
      rfl
    rw [(separator_plain (hbetween _ hlast)).1] at hend
    cases hend
  · apply markerNumber?_eq_some.mpr
    refine ⟨d.separators, d.marker, d.tail, ⟨rfl, d.separators_all, d.isMarker, ?_⟩, d.number?_tail⟩
    rw [Option.or_none, ← List.getLast?_append, getLast?_front]
    exact d.starts_iff.mpr h
  · simp [hmarker]

theorem ofName?_text_eq_none (d : DiscName) (h : d.separators.getLast? = some '_') :
    ofName? d.text = none := by
  rw [ofName?, text, String.toList_ofList]
  apply scan?_eq_none
  intro a b hab _
  rw [Option.eq_none_iff_forall_ne_some]
  intro ds hread
  exact (d.reading_cut hab hread).1 h

/-- A name that is made to mark a disc tells the normal form of its prefix and its number, and the prefix as
written is the one it is made of, trimmed. It does so exactly if no underscore stands right before the marker
word; where one does, the name marks no disc. -/
theorem discOfName?_text (d : DiscName) :
    (d.separators.getLast? ≠ some '_' →
      discOfName? d.text = some (Text.normalize (String.ofList d.lead), d.number) ∧
      (ofName? d.text).map (·.writtenPrefix) = some (Text.trim (String.ofList d.lead))) ∧
    (d.separators.getLast? = some '_' → discOfName? d.text = none ∧ ofName? d.text = none) := by
  constructor
  · intro h
    have hnumber : (DiscMarker.mk d.lead (Timestamp.padded d.width d.number)).number = some d.number := by
      simp [DiscMarker.number, Timestamp.digits?_padded, d.number_lt]
    rw [discOfName?, d.ofName?_text h, Option.bind_some, hnumber]
    exact ⟨rfl, rfl⟩
  · intro h
    rw [discOfName?, d.ofName?_text_eq_none h]
    exact ⟨rfl, rfl⟩

/-- The second disc of an album, as it is often written. -/
def wallDisc : DiscName where
  lead := ['T', 'h', 'e', ' ', 'W', 'a', 'l', 'l']
  separators := [' ', '(']
  marker := ['D', 'i', 's', 'k']
  gap := [' ']
  width := 2
  number := 2
  closing := [')']
  blanks := []
  lead_line := by decide
  lead_end := by
    rintro c ⟨⟩
    decide +kernel
  lead_apart := by decide
  separators_all := List.all_eq_true.mp (by decide)
  isMarker := ⟨"disk", by decide, by decide⟩
  gap_all := List.all_eq_true.mp (by decide)
  number_lt := by decide
  closing_all := List.all_eq_true.mp (by decide)
  blanks_all := List.all_eq_true.mp (by decide)

/-- An album and a disc number with an underscore between them. -/
def underscored : DiscName where
  lead := ['A', 'l', 'b', 'u', 'm']
  separators := ['_']
  marker := ['C', 'D']
  gap := []
  width := 1
  number := 1
  closing := []
  blanks := []
  lead_line := by decide
  lead_end := by
    rintro c ⟨⟩
    decide +kernel
  lead_apart := by decide
  separators_all := List.all_eq_true.mp (by decide)
  isMarker := ⟨"cd", by decide, by decide⟩
  gap_all := List.all_eq_true.mp (by decide)
  number_lt := by decide
  closing_all := List.all_eq_true.mp (by decide)
  blanks_all := List.all_eq_true.mp (by decide)

theorem discOfName?_text_wall : wallDisc.text = "The Wall (Disk 02)" ∧
    (wallDisc.separators.getLast? ≠ some '_' ∧
      discOfName? wallDisc.text = some (Text.normalize (String.ofList wallDisc.lead), 2) ∧
      (ofName? wallDisc.text).map (·.writtenPrefix) = some (Text.trim (String.ofList wallDisc.lead))) ∧
    underscored.separators.getLast? = some '_' ∧ discOfName? underscored.text = none ∧
      ofName? underscored.text = none := by
  have htext : wallDisc.text = "The Wall (Disk 02)" := by decide +kernel
  have hother : wallDisc.separators.getLast? ≠ some '_' := by decide
  have hunderscore : underscored.separators.getLast? = some '_' := by decide
  exact ⟨htext, ⟨hother, (discOfName?_text wallDisc).1 hother⟩, hunderscore,
    (discOfName?_text underscored).2 hunderscore⟩

/-- A name in the form of a disc can mark none. -/
theorem underscored_not_found :
    ¬ ∀ d : DiscName, discOfName? d.text = some (Text.normalize (String.ofList d.lead), d.number) ∧
      (ofName? d.text).map (·.writtenPrefix) = some (Text.trim (String.ofList d.lead)) := by
  intro h
  have hnone : discOfName? underscored.text = none := by decide +kernel
  rw [(h underscored).1] at hnone
  cases hnone

end DiscName
end MusicImport
