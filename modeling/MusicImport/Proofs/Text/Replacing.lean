import Mathlib.Data.List.Infix
import MusicImport.Proofs.Paths

/-! Replacing a word in a text. A word that does not repeat its first character cannot overlap itself, so a
text can be cut before any character that the word has at most in front, and its parts be replaced one by
one. -/
namespace MusicImport.Text

variable {first d : Char} {rest value cs xs ys : List Char}

/-- How often a word begins in a text. -/
def occurrences (word : List Char) : List Char → Nat
  | [] => 0
  | c :: cs => (if word.isPrefixOf (c :: cs) then 1 else 0) + occurrences word cs

theorem replaceFrom_length (word value xs cs : List Char) :
    replaceFrom word value xs.length (xs ++ cs) = replaceFrom word value 0 cs := by
  induction xs with
  | nil => rfl
  | cons x xs ih => exact ih

theorem replaceAll_word (first : Char) (rest value cs : List Char) :
    replaceAll (first :: rest) value (first :: (rest ++ cs)) =
      value ++ replaceAll (first :: rest) value cs := by
  have hword : (first :: rest).isPrefixOf (first :: (rest ++ cs)) = true :=
    List.isPrefixOf_iff_prefix.mpr (List.prefix_append (first :: rest) cs)
  rw [replaceAll, replaceFrom, if_pos hword, List.length_cons, Nat.add_sub_cancel, replaceFrom_length]
  rfl

theorem replaceAll_other {word : List Char} {c : Char} (h : ¬ word <+: c :: cs) :
    replaceAll word value (c :: cs) = c :: replaceAll word value cs := by
  rw [replaceAll, replaceFrom, if_neg (by simpa using h)]
  rfl

theorem occurrences_other {word : List Char} {c : Char} (h : ¬ word <+: c :: cs) :
    occurrences word (c :: cs) = occurrences word cs := by
  rw [occurrences, if_neg (by simpa using h), Nat.zero_add]

/-- A text is a word and what follows, or begins with another character. -/
theorem word_induction {P : List Char → Prop} (word : List Char) (hword : word ≠ []) (nil : P [])
    (found : ∀ cs, P cs → P (word ++ cs)) (other : ∀ c cs, ¬ word <+: c :: cs → P cs → P (c :: cs)) :
    ∀ cs, P cs := by
  intro cs
  induction hn : cs.length using Nat.strong_induction_on generalizing cs with
  | _ n ih =>
    cases cs with
    | nil => exact nil
    | cons c cs =>
      by_cases hprefix : word <+: c :: cs
      · obtain ⟨zs, hzs⟩ := hprefix
        have hlength := congrArg List.length hzs
        have hpos := List.length_pos_iff.mpr hword
        rw [List.length_append] at hlength
        rw [← hzs]
        exact found zs (ih zs.length (by omega) zs rfl)
      · exact other c cs hprefix (ih cs.length (by simp [← hn]) cs rfl)

/-- A word does not reach beyond a character that it has at most in front. -/
theorem prefix_of_prefix_append (hd : d ∉ rest) (hxs : xs ≠ []) (h : first :: rest <+: xs ++ d :: ys) :
    first :: rest <+: xs := by
  obtain hshort | hlong := List.prefix_or_prefix_of_prefix h (List.prefix_append xs (d :: ys))
  · exact hshort
  obtain ⟨zs, hzs⟩ := hlong
  cases zs with
  | nil => exact ⟨[], by simpa using hzs.symm⟩
  | cons z zs =>
    rw [← hzs, List.prefix_append_right_inj] at h
    obtain ⟨rfl, -⟩ := List.cons_prefix_cons.mp h
    cases xs with
    | nil => exact absurd rfl hxs
    | cons x xs =>
      obtain ⟨-, hrest⟩ := List.cons.inj hzs
      exact absurd (by simp [← hrest]) hd

theorem replaceAll_append (hd : d ∉ rest) (value xs ys : List Char) :
    replaceAll (first :: rest) value (xs ++ d :: ys) =
      replaceAll (first :: rest) value xs ++ replaceAll (first :: rest) value (d :: ys) := by
  induction xs using word_induction (first :: rest) (List.cons_ne_nil _ _) with
  | nil => rfl
  | found xs ih =>
    rw [List.cons_append, List.cons_append, List.append_assoc, replaceAll_word, replaceAll_word, ih,
      List.append_assoc]
  | other c xs hc ih =>
    have hlonger : ¬ first :: rest <+: c :: (xs ++ d :: ys) := fun h =>
      hc (prefix_of_prefix_append hd (List.cons_ne_nil _ _) h)
    rw [List.cons_append, replaceAll_other hlonger, replaceAll_other hc, ih, List.cons_append]

theorem occurrences_append (hd : d ∉ rest) (xs ys : List Char) :
    occurrences (first :: rest) (xs ++ d :: ys) =
      occurrences (first :: rest) xs + occurrences (first :: rest) (d :: ys) := by
  induction xs with
  | nil => simp [occurrences]
  | cons c xs ih =>
    have hsame : (first :: rest).isPrefixOf (c :: (xs ++ d :: ys)) =
        (first :: rest).isPrefixOf (c :: xs) := by
      rw [Bool.eq_iff_iff, List.isPrefixOf_iff_prefix, List.isPrefixOf_iff_prefix]
      exact ⟨prefix_of_prefix_append hd (List.cons_ne_nil _ _), fun h => h.trans (List.prefix_append _ _)⟩
    rw [List.cons_append, occurrences, occurrences, hsame, ih, Nat.add_assoc]

/-- Where the first character does not stand, the word does not begin. -/
theorem occurrences_skip (hfirst : first ∉ xs) (cs : List Char) :
    occurrences (first :: rest) (xs ++ cs) = occurrences (first :: rest) cs := by
  induction xs with
  | nil => rfl
  | cons x xs ih =>
    have hx : ¬ first :: rest <+: x :: (xs ++ cs) := fun h =>
      hfirst (by simp [(List.cons_prefix_cons.mp h).1])
    rw [List.cons_append, occurrences_other hx, ih fun h => hfirst (.tail _ h)]

theorem occurrences_word (hfirst : first ∉ rest) (cs : List Char) :
    occurrences (first :: rest) (first :: (rest ++ cs)) = 1 + occurrences (first :: rest) cs := by
  have hword : (first :: rest).isPrefixOf (first :: (rest ++ cs)) = true :=
    List.isPrefixOf_iff_prefix.mpr (List.prefix_append (first :: rest) cs)
  rw [occurrences, if_pos hword, occurrences_skip hfirst]

theorem occurrences_le_append (word xs cs : List Char) :
    occurrences word cs ≤ occurrences word (xs ++ cs) := by
  induction xs with
  | nil => exact Nat.le_refl _
  | cons x xs ih => exact ih.trans (Nat.le_add_left _ _)

/-- Each occurrence changes the length by the difference between the word and its value. -/
theorem length_replaceAll (hfirst : first ∉ rest) (value cs : List Char) :
    (replaceAll (first :: rest) value cs).length +
        occurrences (first :: rest) cs * (first :: rest).length =
      cs.length + occurrences (first :: rest) cs * value.length := by
  induction cs using word_induction (first :: rest) (List.cons_ne_nil _ _) with
  | nil => simp [replaceAll, replaceFrom, occurrences]
  | found cs ih =>
    rw [List.cons_append, replaceAll_word, occurrences_word hfirst]
    simp only [List.length_append, List.length_cons, Nat.add_mul, Nat.one_mul] at ih ⊢
    omega
  | other c cs hc ih =>
    rw [replaceAll_other hc, occurrences_other hc]
    simp only [List.length_cons] at ih ⊢
    omega

theorem replaceAll_of_none (hnone : occurrences (first :: rest) cs = 0) (value : List Char) :
    replaceAll (first :: rest) value cs = cs := by
  induction cs with
  | nil => rfl
  | cons c cs ih =>
    rw [occurrences, Nat.add_eq_zero_iff] at hnone
    have hc : ¬ first :: rest <+: c :: cs := by simpa using hnone.1
    rw [replaceAll_other hc, ih hnone.2]

theorem replaceAll_self (first : Char) (rest cs : List Char) :
    replaceAll (first :: rest) (first :: rest) cs = cs := by
  induction cs using word_induction (first :: rest) (List.cons_ne_nil _ _) with
  | nil => rfl
  | found cs ih => rw [List.cons_append, replaceAll_word, ih, List.cons_append]
  | other c cs hc ih => rw [replaceAll_other hc, ih]

/-- Replacing leaves a text as it is only if there is nothing to replace, or nothing that changes. -/
theorem replaceAll_eq_self_iff (hfirst : first ∉ rest) :
    replaceAll (first :: rest) value cs = cs ↔
      occurrences (first :: rest) cs = 0 ∨ value = first :: rest := by
  refine ⟨fun h => ?_, fun h => ?_⟩
  · induction cs using word_induction (first :: rest) (List.cons_ne_nil _ _) with
    | nil => exact .inl rfl
    | found cs ih =>
      have hlength := length_replaceAll hfirst value (first :: rest ++ cs)
      rw [h, List.cons_append, occurrences_word hfirst, Nat.add_left_cancel_iff] at hlength
      have hsame : (first :: rest).length = value.length :=
        Nat.eq_of_mul_eq_mul_left (Nat.add_pos_left Nat.one_pos _) hlength
      rw [List.cons_append, replaceAll_word] at h
      exact .inr (List.append_inj_left h hsame.symm)
    | other c cs hc ih =>
      rw [replaceAll_other hc] at h
      rw [occurrences_other hc]
      exact ih (List.cons.inj h).2
  · obtain h | rfl := h
    · exact replaceAll_of_none h value
    · exact replaceAll_self first rest cs

/-- A character that neither the word nor its value has stands as often as before. -/
theorem count_replaceAll {d : Char} (hword : d ∉ first :: rest) (hvalue : d ∉ value) (cs : List Char) :
    (replaceAll (first :: rest) value cs).count d = cs.count d := by
  induction cs using word_induction (first :: rest) (List.cons_ne_nil _ _) with
  | nil => rfl
  | found cs ih =>
    rw [List.cons_append, replaceAll_word, ← List.cons_append, List.count_append, List.count_append, ih,
      List.count_eq_zero.mpr hvalue, List.count_eq_zero.mpr hword]
  | other c cs hc ih => rw [replaceAll_other hc, List.count_cons, List.count_cons, ih]

/-- A character that the word does not have stays. -/
theorem mem_replaceAll {d : Char} (hword : d ∉ first :: rest) (value : List Char) (hd : d ∈ cs) :
    d ∈ replaceAll (first :: rest) value cs := by
  induction cs using word_induction (first :: rest) (List.cons_ne_nil _ _) with
  | nil => cases hd
  | found cs ih =>
    rw [List.cons_append, replaceAll_word]
    exact List.mem_append_right _ (ih ((List.mem_append.mp hd).resolve_left hword))
  | other c cs hc ih =>
    rw [replaceAll_other hc]
    exact List.mem_cons.mpr ((List.mem_cons.mp hd).imp_right ih)

end MusicImport.Text
