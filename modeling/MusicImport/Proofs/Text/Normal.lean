import Mathlib.Data.List.DropRight
import Mathlib.Data.List.TakeWhile
import MusicImport.Text.Blank
import MusicImport.Text.Normal

/-! White space around a text does not show in its normal form: blanks are no part of words, stay as they
are in lower case, and do not bear on the case of what stands before or after them. What trimming leaves neither
begins nor ends in a blank. -/
namespace MusicImport.Text

variable {bs cs : List Char}

/-- What stands in front of a stop is all that is taken, and the rest is what is left. -/
theorem span_append {α : Type} {p : α → Bool} {xs ys : List α} (hxs : ∀ a ∈ xs, p a = true)
    (hys : ∀ a ∈ ys.head?, p a = false) :
    (xs ++ ys).takeWhile p = xs ∧ (xs ++ ys).dropWhile p = ys := by
  rw [List.takeWhile_append_of_pos hxs, List.dropWhile_append_of_pos hxs]
  cases ys with
  | nil => simp
  | cons y ys => simp [hys y rfl]

theorem append_unique {α : Type} {p : α → Bool} {xs ys xs' ys' : List α} (h : xs ++ ys = xs' ++ ys')
    (hxs : ∀ a ∈ xs, p a = true) (hys : ∀ a ∈ ys.head?, p a = false)
    (hxs' : ∀ a ∈ xs', p a = true) (hys' : ∀ a ∈ ys'.head?, p a = false) : xs = xs' ∧ ys = ys' := by
  obtain ⟨htake, hdrop⟩ := span_append hxs hys
  obtain ⟨htake', hdrop'⟩ := span_append hxs' hys'
  exact ⟨by rw [← htake, h, htake'], by rw [← hdrop, h, hdrop']⟩

/-- The code points of white space. -/
def blankCodes : List Nat :=
  [0x9, 0xA, 0xB, 0xC, 0xD, 0x20, 0x85, 0xA0, 0x1680, 0x2000, 0x2001, 0x2002, 0x2003, 0x2004, 0x2005,
   0x2006, 0x2007, 0x2008, 0x2009, 0x200A, 0x2028, 0x2029, 0x202F, 0x205F, 0x3000]

theorem mem_blankCodes {c : Char} (h : isBlank c) : c.toNat ∈ blankCodes := by
  obtain ⟨r, hr, hlo, hhi⟩ := CharSet.exists_range_of_contains h
  simp only [blankRanges, List.mem_cons, List.not_mem_nil, or_false] at hr
  simp only [blankCodes, List.mem_cons, List.not_mem_nil, or_false]
  rcases hr with rfl | rfl | rfl | rfl | rfl | rfl | rfl | rfl | rfl | rfl <;>
    simp only at hlo hhi <;> omega

/-- What a blank is for words and their case. -/
theorem blank_neutral {c : Char} (h : isBlank c) :
    isAlphanumeric c = false ∧ isCased c = false ∧ isCaseIgnorable c = false ∧ lowerChar c = [c] ∧
      c ≠ 'Σ' := by
  have hall : ∀ n ∈ blankCodes, isAlphanumeric (Char.ofNat n) = false ∧ isCased (Char.ofNat n) = false ∧
      isCaseIgnorable (Char.ofNat n) = false ∧ lowerChar (Char.ofNat n) = [Char.ofNat n] ∧
      Char.ofNat n ≠ 'Σ' := by decide +kernel
  have hc := hall _ (mem_blankCodes h)
  rwa [Char.ofNat_toNat] at hc

theorem runs_blanks_append {p : Char → Bool} (h : ∀ b ∈ bs, p b = false) (cs : List Char) :
    runs p (bs ++ cs) = runs p cs := by
  induction bs with
  | nil => rfl
  | cons b bs ih =>
    have hb := h b (.head _)
    have hrest := ih fun c hc => h c (.tail _ hc)
    simp [runs, hb, hrest]

theorem runs_append_blanks {p : Char → Bool} (h : ∀ b ∈ bs, p b = false) (cs : List Char) :
    runs p (cs ++ bs) = runs p cs := by
  induction cs with
  | nil => simpa [runs] using runs_blanks_append h []
  | cons c cs ih =>
    cases cs with
    | nil =>
      have hbs : runs p bs = [] := by simpa [runs] using ih
      cases bs with
      | nil => rfl
      | cons b bs =>
        rw [List.singleton_append, runs.eq_def p (c :: b :: bs)]
        simp only [hbs]
        rfl
    | cons d ds =>
      rw [List.cons_append] at ih
      rw [List.cons_append, List.cons_append, runs.eq_def p (c :: d :: (ds ++ bs)),
        runs.eq_def p (c :: d :: ds)]
      simp only [ih]
      cases runs p (d :: ds) <;> rfl

theorem startsCased_append_blanks (h : ∀ b ∈ bs, isBlank b) (cs : List Char) :
    startsCased (cs ++ bs) = startsCased cs := by
  have hblanks : startsCased bs = false := by
    cases bs with
    | nil => rfl
    | cons b bs =>
      obtain ⟨-, hcased, hignorable, -⟩ := blank_neutral (h b (.head _))
      simp [startsCased, hignorable, hcased]
  induction cs with
  | nil => exact hblanks
  | cons c cs ih =>
    by_cases hc : isCaseIgnorable c
    · simpa [startsCased, hc] using ih
    · simp [startsCased, hc]

/-- Blanks before everything that was passed are not seen. -/
theorem lowerFrom_after_blanks (h : ∀ b ∈ bs, isBlank b) (before cs : List Char) :
    lowerFrom (before ++ bs) cs = lowerFrom before cs := by
  induction cs generalizing before with
  | nil => rfl
  | cons c cs ih =>
    rw [lowerFrom, lowerFrom, startsCased_append_blanks h, ← List.cons_append, ih]

theorem lowerFrom_blanks (h : ∀ b ∈ bs, isBlank b) (before : List Char) : lowerFrom before bs = bs := by
  induction bs generalizing before with
  | nil => rfl
  | cons b bs ih =>
    obtain ⟨-, -, -, hlower, hsigma⟩ := blank_neutral (h b (.head _))
    rw [lowerFrom, if_neg hsigma, hlower, ih fun c hc => h c (.tail _ hc)]
    rfl

theorem lowerFrom_append_blanks (h : ∀ b ∈ bs, isBlank b) (before cs : List Char) :
    lowerFrom before (cs ++ bs) = lowerFrom before cs ++ bs := by
  induction cs generalizing before with
  | nil => exact lowerFrom_blanks h before
  | cons c cs ih =>
    rw [List.cons_append, lowerFrom, lowerFrom, startsCased_append_blanks h, ih, List.append_assoc]

theorem lowerFrom_blanks_append (h : ∀ b ∈ bs, isBlank b) (before cs : List Char) :
    lowerFrom before (bs ++ cs) = bs ++ lowerFrom (bs.reverse ++ before) cs := by
  induction bs generalizing before with
  | nil => rfl
  | cons b bs ih =>
    obtain ⟨-, -, -, hlower, hsigma⟩ := blank_neutral (h b (.head _))
    rw [List.cons_append, lowerFrom, if_neg hsigma, hlower, ih fun c hc => h c (.tail _ hc)]
    simp

theorem rdropWhile_append_of_pos {p : Char → Bool} (h : ∀ b ∈ bs, p b) (cs : List Char) :
    (cs ++ bs).rdropWhile p = cs.rdropWhile p := by
  rw [List.rdropWhile, List.reverse_append, List.dropWhile_append_of_pos (by simpa using h)]
  rfl

theorem rdropWhile_eq_self {p : Char → Bool} (h : ∀ before c, cs = before ++ [c] → p c = false) :
    cs.rdropWhile p = cs := by
  refine List.rdropWhile_eq_self_iff.mpr fun hne => ?_
  simp [h _ _ (List.dropLast_append_getLast hne).symm]

/-- Nothing is dropped from the end of what has none of the characters. -/
theorem exists_rdropWhile_append {p : Char → Bool} (h : ∀ c ∈ cs, p c = false) (ds : List Char) :
    ∃ kept, (cs ++ ds).rdropWhile p = cs ++ kept := by
  induction ds using List.reverseRecOn with
  | nil =>
    refine ⟨[], ?_⟩
    rw [List.append_nil, rdropWhile_eq_self]
    exact fun before c hcs => h c (hcs ▸ List.mem_concat_self)
  | append_singleton ds d ih =>
    rw [← List.append_assoc]
    by_cases hd : p d
    · rwa [List.rdropWhile_concat_pos _ _ _ hd]
    · exact ⟨ds ++ [d], by rw [List.rdropWhile_concat_neg _ _ _ hd, List.append_assoc]⟩

/-- What is left when characters are dropped from the end does not end in one of them. -/
theorem dropEndWhile_ne {p : Char → Bool} {c : Char} (hc : p c) (cs before : List Char) :
    dropEndWhile p cs ≠ before ++ [c] := by
  intro h
  have hself : (before ++ [c]).rdropWhile p = before ++ [c] := by
    rw [← h]
    exact List.rdropWhile_idempotent _ cs
  exact List.rdropWhile_eq_self_iff.mp hself (by simp) (by simpa using hc)

theorem trimChars_eq (cs : List Char) : trimChars cs = (cs.dropWhile isBlank).rdropWhile isBlank := rfl

/-- A text is what is left of it in the middle, with blanks around it. -/
theorem trimChars_split (cs : List Char) : ∃ before after, cs = before ++ trimChars cs ++ after ∧
    (∀ b ∈ before, isBlank b) ∧ ∀ b ∈ after, isBlank b := by
  refine ⟨cs.takeWhile isBlank, (cs.dropWhile isBlank).rtakeWhile isBlank, ?_,
    fun b hb => List.mem_takeWhile_imp hb, fun b hb => List.mem_rtakeWhile_imp hb⟩
  rw [trimChars_eq, List.append_assoc, List.rdropWhile_append_rtakeWhile, List.takeWhile_append_dropWhile]

theorem isInfix_trimChars (cs : List Char) : trimChars cs <:+: cs := by
  obtain ⟨before, after, hsplit, -, -⟩ := trimChars_split cs
  exact ⟨before, after, hsplit.symm⟩

/-- Text that is left begins with no blank. -/
theorem trimChars_start (cs : List Char) : ∀ c ∈ (trimChars cs).head?, isBlank c = false := by
  intro c hc
  have hstart := List.head?_dropWhile_not isBlank cs
  obtain ⟨rest, hrest⟩ : trimChars cs <+: cs.dropWhile isBlank := List.rdropWhile_prefix _ _
  rw [← hrest, List.head?_append, hc] at hstart
  simpa using hstart

theorem trimChars_end (cs before : List Char) {c : Char} (hc : isBlank c) : trimChars cs ≠ before ++ [c] :=
  dropEndWhile_ne hc _ before

theorem trimChars_eq_self (hstart : ∀ c ∈ cs.head?, isBlank c = false)
    (hend : ∀ before c, cs = before ++ [c] → isBlank c = false) : trimChars cs = cs := by
  have hkept : cs.dropWhile isBlank = cs := by
    cases cs with
    | nil => rfl
    | cons c cs => exact List.dropWhile_cons_of_neg (by simp [hstart c rfl])
  rw [trimChars_eq, hkept]
  exact rdropWhile_eq_self hend

theorem normalize_trim (s : String) : normalize (trim s) = normalize s := by
  have hneutral : ∀ {bs : List Char}, (∀ b ∈ bs, isBlank b) → ∀ b ∈ bs, isAlphanumeric b = false :=
    fun h b hb => (blank_neutral (h b hb)).1
  obtain ⟨before, after, hs, hbefore, hafter⟩ := trimChars_split s.toList
  have hreverse : ∀ b ∈ before.reverse, isBlank b := fun b hb => hbefore b (List.mem_reverse.mp hb)
  have hlower : lowerFrom [] s.toList = before ++ lowerFrom [] (trimChars s.toList) ++ after := by
    calc lowerFrom [] s.toList
      _ = lowerFrom [] (before ++ trimChars s.toList ++ after) := by rw [← hs]
      _ = before ++ lowerFrom ([] ++ before.reverse) (trimChars s.toList) ++ after := by
        rw [lowerFrom_append_blanks hafter, lowerFrom_blanks_append hbefore, List.append_nil,
          List.nil_append]
      _ = before ++ lowerFrom [] (trimChars s.toList) ++ after := by
        rw [lowerFrom_after_blanks hreverse]
  unfold normalize normalWords trim
  rw [String.toList_ofList, hlower, runs_append_blanks (hneutral hafter),
    runs_blanks_append (hneutral hbefore)]

end MusicImport.Text
