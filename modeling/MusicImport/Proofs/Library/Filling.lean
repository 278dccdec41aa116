import MusicImport.Library.Template
import MusicImport.Proofs.Text.Replacing

/-! Placeholders are filled in one after the other, each in the whole text, and what one of them brings in is read
again for those that come later. The outcome is that of one substitution where no placeholder forms on the
way. -/
namespace MusicImport
open Text

namespace Placeholder

variable {p q : Placeholder} {cs : List Char}

theorem mem_all (p : Placeholder) : p ∈ all := by cases p <;> decide

theorem brace_not_mem (p : Placeholder) : '{' ∉ p.name.toList ++ ['}'] := by cases p <;> decide

/-- No placeholder begins like another one. -/
theorem eq_of_begins (h : p.mark <+: q.mark ++ cs) : p = q := by
  obtain h | h := List.prefix_or_prefix_of_prefix h (List.prefix_append q.mark cs)
  · revert h
    cases p <;> cases q <;> decide
  · revert h
    cases p <;> cases q <;> decide

/-- The placeholder that a text begins with. -/
def at? (cs : List Char) : Option Placeholder := all.find? (·.mark.isPrefixOf cs)

theorem at?_eq_none : at? cs = none ↔ ∀ p : Placeholder, ¬ p.mark <+: cs := by
  simp [at?, mem_all]

theorem prefix_of_at? (h : at? cs = some p) : p.mark <+: cs := by
  have hp := List.find?_some h
  simpa using hp

theorem at?_mark (p : Placeholder) (cs : List Char) : at? (p.mark ++ cs) = some p := by
  cases hat : at? (p.mark ++ cs) with
  | none => exact absurd (List.prefix_append p.mark cs) (at?_eq_none.mp hat p)
  | some q => rw [eq_of_begins (prefix_of_at? hat)]

end Placeholder

/-- A text with values for its placeholders, read once from the left after passing over `skip` characters. -/
def substituteFrom (value : Placeholder → List Char) : (skip : Nat) → List Char → List Char
  | _, [] => []
  | skip + 1, _ :: cs => substituteFrom value skip cs
  | 0, c :: cs =>
    match Placeholder.at? (c :: cs) with
    | some p => value p ++ substituteFrom value (p.mark.length - 1) cs
    | none => c :: substituteFrom value 0 cs

/-- Every placeholder of a text replaced by its value, which is not read again. -/
def substitute (value : Placeholder → List Char) (cs : List Char) : List Char :=
  substituteFrom value 0 cs

section

variable {p : Placeholder} {c : Char} {cs : List Char} {value : Placeholder → List Char}

theorem substituteFrom_length (value : Placeholder → List Char) (xs cs : List Char) :
    substituteFrom value xs.length (xs ++ cs) = substituteFrom value 0 cs := by
  induction xs with
  | nil => rfl
  | cons x xs ih => exact ih

theorem substitute_mark (value : Placeholder → List Char) (p : Placeholder) (cs : List Char) :
    substitute value (p.mark ++ cs) = value p ++ substitute value cs := by
  have hat := p.at?_mark cs
  rw [Placeholder.mark, List.cons_append] at hat ⊢
  rw [substitute, substituteFrom, hat]
  simp only [Placeholder.mark, List.length_cons, Nat.add_sub_cancel, substituteFrom_length]
  rfl

theorem substitute_other (hc : Placeholder.at? (c :: cs) = none) :
    substitute value (c :: cs) = c :: substitute value cs := by
  rw [substitute, substituteFrom, hc]
  rfl

/-- A text is a placeholder and what follows, or begins with a character that opens none. -/
theorem template_induction {P : List Char → Prop} (nil : P []) (mark : ∀ p cs, P cs → P (Placeholder.mark p ++ cs))
    (other : ∀ c cs, Placeholder.at? (c :: cs) = none → P cs → P (c :: cs)) : ∀ cs, P cs := by
  intro cs
  induction hn : cs.length using Nat.strong_induction_on generalizing cs with
  | _ n ih =>
    cases cs with
    | nil => exact nil
    | cons c cs =>
      cases hat : Placeholder.at? (c :: cs) with
      | none => exact other c cs hat (ih cs.length (by simp [← hn]) cs rfl)
      | some p =>
        obtain ⟨zs, hzs⟩ := Placeholder.prefix_of_at? hat
        have hlength := congrArg List.length hzs
        rw [Placeholder.mark, List.cons_append, List.length_cons, List.length_append] at hlength
        rw [← hzs]
        exact mark p zs (ih zs.length (by omega) zs rfl)

/-- Left as they are, placeholders leave the text as it is. -/
theorem substitute_mark_self (cs : List Char) : substitute Placeholder.mark cs = cs := by
  induction cs using template_induction with
  | nil => rfl
  | mark p cs ih => rw [substitute_mark, ih]
  | other c cs hc ih => rw [substitute_other hc, ih]

end

section

variable {p q : Placeholder} {w x cs : List Char} {u : Placeholder → List Char}

theorem occurrences_mark_self (p : Placeholder) (cs : List Char) :
    occurrences p.mark (p.mark ++ cs) = 1 + occurrences p.mark cs :=
  occurrences_word p.brace_not_mem cs

theorem occurrences_mark_of_ne (h : p ≠ q) (cs : List Char) :
    occurrences p.mark (q.mark ++ cs) = occurrences p.mark cs := by
  have hp : ¬ p.mark <+: q.mark ++ cs := fun hp => h (Placeholder.eq_of_begins hp)
  rw [Placeholder.mark.eq_def q, List.cons_append] at hp ⊢
  rw [occurrences_other hp]
  exact occurrences_skip q.brace_not_mem cs

theorem occurrences_of_at?_none (hc : Placeholder.at? (c :: cs) = none) (p : Placeholder) :
    occurrences p.mark (c :: cs) = occurrences p.mark cs :=
  occurrences_other (Placeholder.at?_eq_none.mp hc p)

/-- A placeholder that is left as it is still stands everywhere the template has it. -/
theorem occurrences_le_substitute (hu : u p = p.mark) (cs : List Char) :
    occurrences p.mark cs ≤ occurrences p.mark (substitute u cs) := by
  induction cs using template_induction with
  | nil => exact Nat.zero_le _
  | mark q cs ih =>
    rw [substitute_mark]
    obtain rfl | hq := eq_or_ne p q
    · rw [hu, occurrences_mark_self, occurrences_mark_self]
      exact Nat.add_le_add_left ih 1
    · rw [occurrences_mark_of_ne hq]
      exact ih.trans (occurrences_le_append _ _ _)
  | other c cs hc ih =>
    rw [substitute_other hc, occurrences_of_at?_none hc]
    exact ih.trans (Nat.le_add_left _ _)

theorem length_substitute_update (hu : u p = p.mark) (w cs : List Char) :
    (substitute (Function.update u p w) cs).length + occurrences p.mark cs * p.mark.length =
      (substitute u cs).length + occurrences p.mark cs * w.length := by
  induction cs using template_induction with
  | nil => simp [substitute, substituteFrom, occurrences]
  | mark q cs ih =>
    rw [substitute_mark, substitute_mark]
    obtain rfl | hq := eq_or_ne p q
    · rw [hu, occurrences_mark_self, Function.update_self]
      simp only [List.length_append, Nat.add_mul, Nat.one_mul]
      omega
    · rw [occurrences_mark_of_ne hq, Function.update_of_ne hq.symm]
      simp only [List.length_append]
      omega
  | other c cs hc ih =>
    rw [substitute_other hc, substitute_other hc, occurrences_of_at?_none hc]
    simp only [List.length_cons]
    omega

theorem replaceAll_append_mark (p : Placeholder) (w x cs : List Char) :
    replaceAll p.mark w (x ++ (p.mark ++ cs)) = replaceAll p.mark w x ++ (w ++ replaceAll p.mark w cs) := by
  have hword : replaceAll p.mark w (p.mark ++ cs) = w ++ replaceAll p.mark w cs := replaceAll_word _ _ w cs
  rw [← hword]
  exact replaceAll_append p.brace_not_mem w x _

theorem occurrences_append_mark (p : Placeholder) (x cs : List Char) :
    occurrences p.mark (x ++ (p.mark ++ cs)) = occurrences p.mark x + (1 + occurrences p.mark cs) := by
  rw [← occurrences_mark_self]
  exact occurrences_append p.brace_not_mem x _

/-- A text before and a substituted text do not change their lengths against each other. -/
theorem length_replaceAll_of_add (hu : u p = p.mark) (x cs : List Char)
    (h : (replaceAll p.mark w x).length + (replaceAll p.mark w (substitute u cs)).length =
      x.length + (substitute (Function.update u p w) cs).length) :
    (replaceAll p.mark w x).length = x.length := by
  obtain ⟨more, hmore⟩ := Nat.exists_eq_add_of_le (occurrences_le_substitute hu cs)
  have hreplaced (ys : List Char) : (replaceAll p.mark w ys).length + occurrences p.mark ys * p.mark.length =
      ys.length + occurrences p.mark ys * w.length := length_replaceAll p.brace_not_mem w ys
  have hx := hreplaced x
  have hrest := hreplaced (substitute u cs)
  have hsubstitute := length_substitute_update hu w cs
  rw [hmore, Nat.add_mul, Nat.add_mul] at hrest
  have hequal : (occurrences p.mark x + more) * p.mark.length =
      (occurrences p.mark x + more) * w.length := by
    rw [Nat.add_mul, Nat.add_mul]
    omega
  obtain hnone | hsome := Nat.eq_zero_or_pos (occurrences p.mark x + more)
  · rw [(Nat.add_eq_zero_iff.mp hnone).1] at hx
    omega
  · rw [Nat.eq_of_mul_eq_mul_left hsome hequal] at hx
    omega

/-- Replacing one more placeholder, behind any text, is the substitution with its value just where it stands
nowhere but in the template. -/
theorem replaceAll_substitute_iff (hu : u p = p.mark) (x cs : List Char) :
    replaceAll p.mark w (x ++ substitute u cs) = x ++ substitute (Function.update u p w) cs ↔
      occurrences p.mark (x ++ substitute u cs) = occurrences p.mark cs ∨ w = p.mark := by
  induction cs using template_induction generalizing x with
  | nil =>
    rw [substitute, substituteFrom, substitute, substituteFrom, List.append_nil]
    exact replaceAll_eq_self_iff p.brace_not_mem
  | mark q cs ih =>
    rw [substitute_mark, substitute_mark]
    obtain rfl | hq := eq_or_ne p q
    · have hparts : replaceAll p.mark w x ++ (w ++ replaceAll p.mark w (substitute u cs)) =
            x ++ (w ++ substitute (Function.update u p w) cs) ↔
          replaceAll p.mark w x = x ∧
            replaceAll p.mark w (substitute u cs) = substitute (Function.update u p w) cs := by
        refine ⟨fun h => ?_, fun h => by rw [h.1, h.2]⟩
        have hlength := congrArg List.length h
        simp only [List.length_append] at hlength
        obtain ⟨hx, hrest⟩ := List.append_inj h (length_replaceAll_of_add hu x cs (by omega))
        exact ⟨hx, List.append_cancel_left hrest⟩
      have hx : replaceAll p.mark w x = x ↔ occurrences p.mark x = 0 ∨ w = p.mark :=
        replaceAll_eq_self_iff p.brace_not_mem
      have hrest : replaceAll p.mark w (substitute u cs) = substitute (Function.update u p w) cs ↔
          occurrences p.mark (substitute u cs) = occurrences p.mark cs ∨ w = p.mark := ih []
      have hle := occurrences_le_substitute hu cs
      rw [hu, Function.update_self, replaceAll_append_mark, occurrences_append_mark, occurrences_mark_self,
        hparts, hx, hrest, ← and_or_right]
      have hcount : occurrences p.mark x = 0 ∧ occurrences p.mark (substitute u cs) = occurrences p.mark cs ↔
          occurrences p.mark x + (1 + occurrences p.mark (substitute u cs)) = 1 + occurrences p.mark cs := by
        omega
      rw [← hcount]
    · rw [occurrences_mark_of_ne hq, Function.update_of_ne hq.symm, ← List.append_assoc, ← List.append_assoc]
      exact ih (x ++ u q)
  | other c cs hc ih =>
    rw [substitute_other hc, substitute_other hc, occurrences_of_at?_none hc]
    simpa using ih (x ++ [c])

end

section

variable {p : Placeholder} {done : List Placeholder} {f : TagFields} {source : FilePath} {template : List Char}

/-- A text after some placeholders have been filled in. -/
def fillSome (f : TagFields) (source : FilePath) (done : List Placeholder) (template : List Char) : List Char :=
  done.foldl (fun cs p => replaceAll p.mark (p.flatValue f source) cs) template

/-- What some placeholders have been filled in with, and the others as they are. -/
def valueOrMark (f : TagFields) (source : FilePath) (done : List Placeholder) (p : Placeholder) : List Char :=
  if p ∈ done then p.flatValue f source else p.mark

/-- No placeholder forms on the way: when its turn comes, it stands just where the template has it. It does not
matter where its value is the placeholder itself. -/
def NoneForms (f : TagFields) (source : FilePath) (template : List Char) : Prop :=
  ∀ done p, done ++ [p] <+: Placeholder.all →
    occurrences p.mark (fillSome f source done template) = occurrences p.mark template ∨
      p.flatValue f source = p.mark

/-- Every brace that opens in a template opens a placeholder. -/
def BracesOpenPlaceholders (template : List Char) : Prop :=
  ∀ before after, template = before ++ '{' :: after → ∃ p : Placeholder, p.mark <+: '{' :: after

theorem fillSome_append (f : TagFields) (source : FilePath) (done : List Placeholder) (p : Placeholder)
    (template : List Char) : fillSome f source (done ++ [p]) template =
      replaceAll p.mark (p.flatValue f source) (fillSome f source done template) := by
  simp [fillSome]

theorem valueOrMark_append (f : TagFields) (source : FilePath) (done : List Placeholder) (p : Placeholder) :
    valueOrMark f source (done ++ [p]) =
      Function.update (valueOrMark f source done) p (p.flatValue f source) := by
  funext q
  obtain rfl | hq := eq_or_ne q p
  · simp [valueOrMark]
  · simp [valueOrMark, hq]

theorem valueOrMark_all (f : TagFields) (source : FilePath) :
    valueOrMark f source Placeholder.all = fun p => p.flatValue f source := by
  funext p
  exact if_pos p.mem_all

theorem fillSome_append_iff (hp : p ∉ done)
    (h : fillSome f source done template = substitute (valueOrMark f source done) template) :
    fillSome f source (done ++ [p]) template = substitute (valueOrMark f source (done ++ [p])) template ↔
      occurrences p.mark (fillSome f source done template) = occurrences p.mark template ∨
        p.flatValue f source = p.mark := by
  rw [fillSome_append, valueOrMark_append, h]
  exact replaceAll_substitute_iff (if_neg hp) [] template

theorem not_mem_of_prefix_all (h : done ++ [p] <+: Placeholder.all) : p ∉ done := by
  have hnodup : (done ++ [p]).Nodup := h.sublist.nodup (by decide)
  exact fun hmem => (List.nodup_append.mp hnodup).2.2 p hmem p (.head _) rfl

/-- From one placeholder to the next, up to the last. -/
theorem fillSome_eq (hstep : ∀ done p, done ++ [p] <+: Placeholder.all →
      fillSome f source done template = substitute (valueOrMark f source done) template →
      occurrences p.mark (fillSome f source done template) = occurrences p.mark template ∨
        p.flatValue f source = p.mark)
    (hdone : done <+: Placeholder.all) :
    fillSome f source done template = substitute (valueOrMark f source done) template := by
  induction done using List.reverseRecOn with
  | nil => exact (substitute_mark_self template).symm
  | append_singleton done p ih =>
    have hbefore := ih ((List.prefix_append done [p]).trans hdone)
    exact (fillSome_append_iff (not_mem_of_prefix_all hdone) hbefore).mpr (hstep done p hdone hbefore)

theorem noneForms_iff (f : TagFields) (source : FilePath) (template : List Char) :
    NoneForms f source template ↔ ∀ done, done <+: Placeholder.all →
      fillSome f source done template = substitute (valueOrMark f source done) template := by
  refine ⟨fun hnone done => fillSome_eq fun done p hdone _ => hnone done p hdone, fun hfill done p hdone => ?_⟩
  have hbefore := hfill done ((List.prefix_append done [p]).trans hdone)
  exact (fillSome_append_iff (not_mem_of_prefix_all hdone) hbefore).mp (hfill _ hdone)

/-- Values without braces form no placeholder in a template that has none of its own. -/
theorem occurrences_substitute {u : Placeholder → List Char}
    (hu : ∀ q, u q = q.mark ∨ '{' ∉ u q) (hp : u p = p.mark) (htemplate : BracesOpenPlaceholders template) :
    occurrences p.mark (substitute u template) = occurrences p.mark template := by
  induction template using template_induction with
  | nil => rfl
  | mark q cs ih =>
    have hcs : BracesOpenPlaceholders cs := fun before after h =>
      htemplate (q.mark ++ before) after (by rw [h, List.append_assoc])
    rw [substitute_mark]
    obtain rfl | hq := eq_or_ne p q
    · rw [hp, occurrences_mark_self, occurrences_mark_self, ih hcs]
    · rw [occurrences_mark_of_ne hq]
      obtain hmark | hplain := hu q
      · rw [hmark, occurrences_mark_of_ne hq, ih hcs]
      · exact (occurrences_skip hplain _).trans (ih hcs)
  | other c cs hc ih =>
    have hcs : BracesOpenPlaceholders cs := fun before after h =>
      htemplate (c :: before) after (by rw [h, List.cons_append])
    have hplain : '{' ∉ [c] := by
      intro hbrace
      obtain rfl := List.mem_singleton.mp hbrace
      obtain ⟨q, hq⟩ := htemplate [] cs rfl
      exact Placeholder.at?_eq_none.mp hc q hq
    rw [substitute_other hc, occurrences_of_at?_none hc, ← ih hcs]
    exact occurrences_skip hplain _

theorem noneForms_of_plain (hvalues : ∀ p : Placeholder, '{' ∉ p.flatValue f source)
    (htemplate : BracesOpenPlaceholders template) : NoneForms f source template := by
  refine (noneForms_iff f source template).mpr fun done => fillSome_eq fun done p hdone hbefore => .inl ?_
  rw [hbefore]
  refine occurrences_substitute (fun q => ?_) (if_neg (not_mem_of_prefix_all hdone)) htemplate
  unfold valueOrMark
  split
  · exact .inr (hvalues q)
  · exact .inl rfl

end

/-- The placeholders of a template are filled in as if all were replaced at once, each by its own value, if none
forms on the way; and this is so at every stage just if none forms. In particular it is so where the values have
no opening brace and the template has none but those of its placeholders. -/
theorem fillPlaceholders_substitutes (f : TagFields) (source : FilePath) (template : List Char) :
    (NoneForms f source template →
      fillPlaceholders f source template = substitute (fun p => p.flatValue f source) template) ∧
    (NoneForms f source template ↔ ∀ done, done <+: Placeholder.all →
      fillSome f source done template = substitute (valueOrMark f source done) template) ∧
    ((∀ p : Placeholder, '{' ∉ p.flatValue f source) → BracesOpenPlaceholders template →
      NoneForms f source template) := by
  refine ⟨fun h => ?_, noneForms_iff f source template, noneForms_of_plain⟩
  have hall := (noneForms_iff f source template).mp h Placeholder.all (List.prefix_refl _)
  rw [valueOrMark_all] at hall
  exact hall

/-- Braces of a value that make up no placeholder stay. -/
example : fillPlaceholders { artist := some "\x7bA/B", title := some "T" } ⟨"a.flac"⟩
    "\x7bArtist\x7d - \x7bTitle\x7d".toList = "\x7bA_B - T".toList := by decide +kernel

/-- An artist that is named like a placeholder is taken for one. -/
theorem value_filled_again : ¬ ∀ (f : TagFields) (source : FilePath) (template : List Char),
    fillPlaceholders f source template = substitute (fun p => p.flatValue f source) template := by
  intro h
  have hartist := h { album := some "X", artist := some "\x7bTitle\x7d", title := some "T" } ⟨"a.flac"⟩
    "\x7bArtist\x7d".toList
  revert hartist
  decide +kernel

end MusicImport
