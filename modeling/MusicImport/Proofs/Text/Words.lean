import MusicImport.Proofs.Text.Normal

/-! Normal forms are words in small letters with single spaces between them. A small letter is in none of
the ranges that lead to small letters, so that nothing is left to do when a normal form is brought to
normal form again. -/
namespace MusicImport.Text

variable {cs : List Char} {c d : Char} {m n : Nat}

namespace CaseRange

variable {r s : CaseRange}

theorem map?_eq_some : r.map? m = some n ↔
    r.first ≤ m ∧ m ≤ r.last ∧ (m - r.first) % r.step = 0 ∧ n = r.target + (m - r.first) := by
  unfold map?
  split
  next h => simp [h, eq_comm]
  next h =>
    simp only [reduceCtorEq, false_iff]
    rintro ⟨hfirst, hlast, hstep, -⟩
    exact h ⟨hfirst, hlast, hstep⟩

/-- No code point that one range leads to is in the other: they are apart, or both go in steps of two and
stay on different sides. -/
def misses (r s : CaseRange) : Bool :=
  (r.target + (r.last - r.first)).blt s.first || s.last.blt r.target ||
    ((r.step = 2 || r.first = r.last) && s.step = 2 && (r.target + s.first) % 2 = 1)

theorem map?_of_misses (hmiss : r.misses s) (h : r.map? m = some n) : s.map? n = none := by
  obtain ⟨hfirst, hlast, hstep, rfl⟩ := map?_eq_some.mp h
  refine Option.eq_none_iff_forall_ne_some.mpr fun k hk => ?_
  obtain ⟨hfirst', hlast', hstep', -⟩ := map?_eq_some.mp hk
  simp only [misses, Bool.or_eq_true, Bool.and_eq_true, decide_eq_true_eq, Nat.blt_eq] at hmiss
  obtain (hbefore | hafter) | ⟨⟨heven, htwo⟩, hodd⟩ := hmiss
  · omega
  · omega
  · rw [htwo] at hstep'
    obtain htwo | hone := heven
    · rw [htwo] at hstep
      omega
    · omega

end CaseRange

/-- The ranges of what is not small: the capitals with a small letter, and the one that becomes two
characters. -/
def capitalRanges : List CaseRange := ⟨0x130, 0x130, 1, 0x69⟩ :: lowercaseRanges

theorem lowercaseRanges_misses : (lowercaseRanges.all fun r => capitalRanges.all r.misses) = true := by
  decide +kernel

theorem lowercaseRanges_valid : ∀ r ∈ lowercaseRanges, r.target + (r.last - r.first) < 0xD800 ∨
    0xDFFF < r.target ∧ r.target + (r.last - r.first) < 0x110000 := by decide +kernel

theorem toNat_ofNat (h : n.isValidChar) : (Char.ofNat n).toNat = n := by
  rw [Char.ofNat, dif_pos h]
  rfl

/-- A code point that no range holds stands for itself. -/
theorem lowerCode_of_none (h : ∀ r ∈ lowercaseRanges, r.map? n = none) : lowerCode n = n := by
  unfold lowerCode
  rw [List.findSome?_eq_none_iff.mpr h]
  rfl

/-- A code point either stands for itself or has the small letter of a range. -/
theorem lowerCode_cases (n : Nat) :
    (∀ r ∈ lowercaseRanges, r.map? n = none) ∨ ∃ r ∈ lowercaseRanges, r.map? n = some (lowerCode n) := by
  unfold lowerCode
  cases hfind : lowercaseRanges.findSome? (·.map? n) with
  | none => exact .inl (List.findSome?_eq_none_iff.mp hfind)
  | some k =>
    obtain ⟨r, hr, hk⟩ := List.exists_of_findSome?_eq_some hfind
    exact .inr ⟨r, hr, hk⟩

theorem lowerChar_of_none (h : ∀ r ∈ capitalRanges, r.map? c.toNat = none) : lowerChar c = [c] := by
  have hdotted : c.toNat ≠ 0x130 := by
    intro hc
    have hnone := h _ (.head _)
    rw [hc] at hnone
    cases hnone
  rw [lowerChar, if_neg hdotted, lowerCode_of_none fun r hr => h r (.tail _ hr), Char.ofNat_toNat]

/-- What a character becomes in lower case is in lower case. -/
theorem lowerChar_settled (h : d ∈ lowerChar c) : lowerChar d = [d] := by
  unfold lowerChar at h
  split at h
  next =>
    have hletter : lowerChar 'i' = ['i'] := by decide +kernel
    have hdot : lowerChar (Char.ofNat 0x307) = [Char.ofNat 0x307] := by decide +kernel
    obtain rfl | rfl : d = 'i' ∨ d = Char.ofNat 0x307 := by simpa using h
    · exact hletter
    · exact hdot
  next hdotted =>
    obtain rfl := List.mem_singleton.mp h
    obtain hnone | ⟨r, hr, hmap⟩ := lowerCode_cases c.toNat
    · rw [lowerCode_of_none hnone, Char.ofNat_toNat, lowerChar, if_neg hdotted, lowerCode_of_none hnone,
        Char.ofNat_toNat]
    · have hvalid : (lowerCode c.toNat).isValidChar := by
        obtain ⟨hfirst, hlast, -, hcode⟩ := CaseRange.map?_eq_some.mp hmap
        have hrange := lowercaseRanges_valid r hr
        rw [Nat.isValidChar]
        omega
      refine lowerChar_of_none fun s hs => ?_
      have hmiss : r.misses s := List.all_eq_true.mp (List.all_eq_true.mp lowercaseRanges_misses r hr) s hs
      rw [toNat_ofNat hvalid]
      exact CaseRange.map?_of_misses hmiss hmap

/-- A text in lower case consists of characters that lower case does not change. -/
theorem lowerFrom_settled {before : List Char} (h : d ∈ lowerFrom before cs) : lowerChar d = [d] := by
  induction cs generalizing before with
  | nil => cases h
  | cons c cs ih =>
    obtain h | h := List.mem_append.mp h
    · split at h
      · have hfinal : lowerChar 'ς' = ['ς'] := by decide +kernel
        have hother : lowerChar 'σ' = ['σ'] := by decide +kernel
        split at h
        · rw [List.mem_singleton.mp h, hfinal]
        · rw [List.mem_singleton.mp h, hother]
      · exact lowerChar_settled h
    · exact ih h

theorem lowerFrom_eq_self (h : ∀ c ∈ cs, lowerChar c = [c]) (before : List Char) :
    lowerFrom before cs = cs := by
  induction cs generalizing before with
  | nil => rfl
  | cons c cs ih =>
    have hc := h c (.head _)
    have hsigma : c ≠ 'Σ' := by
      rintro rfl
      revert hc
      decide +kernel
    rw [lowerFrom, if_neg hsigma, hc, ih fun d hd => h d (.tail _ hd)]
    rfl

theorem runs_cons_of_neg {p : Char → Bool} (h : p c = false) (cs : List Char) :
    runs p (c :: cs) = runs p cs := by
  rw [runs.eq_def]
  simp [h]

/-- A run is not empty, and its characters are of the class. -/
theorem mem_runs {p : Char → Bool} {w : List Char} (h : w ∈ runs p cs) :
    w ≠ [] ∧ ∀ c ∈ w, p c ∧ c ∈ cs := by
  induction cs generalizing w with
  | nil => cases h
  | cons c cs ih =>
    have later {w : List Char} (hw : w ∈ runs p cs) : w ≠ [] ∧ ∀ d ∈ w, p d ∧ d ∈ c :: cs :=
      ⟨(ih hw).1, fun d hd => ⟨((ih hw).2 d hd).1, .tail _ ((ih hw).2 d hd).2⟩⟩
    have alone {ws : List (List Char)} (hc : p c) (hws : ∀ w ∈ ws, w ∈ runs p cs) (hw : w ∈ [c] :: ws) :
        w ≠ [] ∧ ∀ d ∈ w, p d ∧ d ∈ c :: cs := by
      obtain rfl | hw := List.mem_cons.mp hw
      · exact ⟨List.cons_ne_nil _ _, fun d hd => by simp_all⟩
      · exact later (hws w hw)
    rw [runs.eq_def] at h
    dsimp only at h
    split at h
    next hc =>
      split at h
      next e ds r rs hruns =>
        split at h
        · obtain rfl | hw := List.mem_cons.mp h
          · have hr := later (hruns ▸ List.mem_cons_self : r ∈ runs p (e :: ds))
            refine ⟨List.cons_ne_nil _ _, fun d hd => ?_⟩
            obtain rfl | hd := List.mem_cons.mp hd
            · exact ⟨hc, .head _⟩
            · exact hr.2 d hd
          · exact later (hruns ▸ List.mem_cons_of_mem _ hw)
        · exact alone hc (fun w hw => hruns ▸ hw) h
      next => exact alone hc (fun w hw => hw) h
    next => exact later h

/-- A word before the end or before a separator is a run of its own. -/
theorem runs_word_append {p : Char → Bool} {w rest : List Char} (hne : w ≠ []) (hw : ∀ c ∈ w, p c)
    (hrest : ∀ c ∈ rest.head?, p c = false) : runs p (w ++ rest) = w :: runs p rest := by
  induction w with
  | nil => exact absurd rfl hne
  | cons c w ih =>
    have hc := hw c (.head _)
    cases w with
    | nil =>
      rw [List.singleton_append, runs.eq_def]
      dsimp only
      rw [if_pos hc]
      cases rest with
      | nil => rfl
      | cons d ds =>
        have hd : p d = false := hrest d rfl
        cases runs p (d :: ds) with
        | nil => rfl
        | cons r rs => simp [hd]
    | cons d w =>
      have hd := hw d (.tail _ (.head _))
      have hruns := ih (List.cons_ne_nil d w) fun e he => hw e (.tail _ he)
      rw [List.cons_append] at hruns
      rw [List.cons_append, List.cons_append, runs.eq_def]
      dsimp only
      rw [if_pos hc, hruns]
      dsimp only
      rw [if_pos hd]

theorem runs_joinWords {p : Char → Bool} {ws : List (List Char)} (hspace : p ' ' = false)
    (h : ∀ w ∈ ws, w ≠ [] ∧ ∀ c ∈ w, p c) : runs p (joinWords ws) = ws := by
  induction ws with
  | nil => rfl
  | cons w ws ih =>
    obtain ⟨hne, hw⟩ := h w (.head _)
    cases ws with
    | nil =>
      have halone : runs p (w ++ []) = w :: runs p [] := runs_word_append hne hw (by simp)
      simpa [joinWords, runs] using halone
    | cons v vs =>
      have hlater := ih fun u hu => h u (.tail _ hu)
      rw [joinWords, runs_word_append hne hw (by simpa using hspace), runs_cons_of_neg hspace, hlater]
      exact List.cons_ne_nil v vs

theorem mem_joinWords {ws : List (List Char)} (h : c ∈ joinWords ws) : c = ' ' ∨ ∃ w ∈ ws, c ∈ w := by
  induction ws with
  | nil => cases h
  | cons w ws ih =>
    cases ws with
    | nil => exact .inr ⟨w, .head _, h⟩
    | cons v vs =>
      have hcases : c ∈ w ∨ c = ' ' ∨ c ∈ joinWords (v :: vs) := by simpa [joinWords] using h
      obtain hw | hspace | hlater := hcases
      · exact .inr ⟨w, .head _, hw⟩
      · exact .inl hspace
      · obtain hspace | ⟨u, hu, hcu⟩ := ih hlater
        · exact .inl hspace
        · exact .inr ⟨u, .tail _ hu, hcu⟩

/-- A word in a normal form: letters and numerals, none of which lower case changes. -/
structure NormalWord (w : List Char) : Prop where
  nonempty : w ≠ []
  alphanumeric : ∀ c ∈ w, isAlphanumeric c
  lower : ∀ c ∈ w, lowerChar c = [c]

theorem normalWords_normal (s : String) : ∀ w ∈ normalWords s, NormalWord w := by
  intro w hw
  obtain ⟨hne, hchars⟩ := mem_runs hw
  exact ⟨hne, fun c hc => (hchars c hc).1, fun c hc => lowerFrom_settled (hchars c hc).2⟩

theorem space_neutral : isAlphanumeric ' ' = false ∧ lowerChar ' ' = [' '] :=
  have h := blank_neutral (c := ' ') (by decide)
  ⟨h.1, h.2.2.2.1⟩

/-- Nothing, or words with single spaces between them. -/
def InNormalForm (s : String) : Prop :=
  ∃ words : List (List Char), s = String.ofList (joinWords words) ∧ ∀ w ∈ words, NormalWord w

theorem normalize_inNormalForm (s : String) : InNormalForm (normalize s) :=
  ⟨normalWords s, rfl, normalWords_normal s⟩

/-- The characters of a normal form are spaces, letters and numerals, and lower case does not change them. -/
theorem InNormalForm.mem {s : String} (h : InNormalForm s) (hc : c ∈ s.toList) :
    (c = ' ' ∨ isAlphanumeric c) ∧ lowerChar c = [c] := by
  obtain ⟨words, rfl, hwords⟩ := h
  rw [String.toList_ofList] at hc
  obtain rfl | ⟨w, hw, hc⟩ := mem_joinWords hc
  · exact ⟨.inl rfl, space_neutral.2⟩
  · exact ⟨.inr ((hwords w hw).alphanumeric c hc), (hwords w hw).lower c hc⟩

theorem InNormalForm.lowercase_eq {s : String} (h : InNormalForm s) : lowercase s = s := by
  rw [lowercase, lowerFrom_eq_self fun c hc => (h.mem hc).2, String.ofList_toList]

/-- The texts in normal form are those that bringing to normal form leaves alone. -/
theorem normalize_eq_self_iff {s : String} : normalize s = s ↔ InNormalForm s := by
  constructor
  · intro h
    rw [← h]
    exact normalize_inNormalForm s
  · intro h
    have hlower := lowerFrom_eq_self (fun c hc => (h.mem hc).2) []
    obtain ⟨words, rfl, hwords⟩ := h
    rw [String.toList_ofList] at hlower
    rw [normalize, normalWords, String.toList_ofList, hlower, runs_joinWords space_neutral.1]
    exact fun w hw => ⟨(hwords w hw).nonempty, (hwords w hw).alphanumeric⟩

theorem normalize_normalize (s : String) : normalize (normalize s) = normalize s :=
  normalize_eq_self_iff.mpr (normalize_inNormalForm s)

end MusicImport.Text
