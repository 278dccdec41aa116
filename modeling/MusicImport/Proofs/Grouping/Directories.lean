import Mathlib.Data.List.Induction
import Mathlib.Data.List.Perm.Basic
import MusicImport.Grouping.Plan
import MusicImport.Proofs.Paths

/-! Files by directory. Every directory holds the files of the walk that lie in it, in their order, and
the directories stand in the order in which the first of their files was found. -/
namespace MusicImport

namespace FilePath

/-- The directory of a file below a root. -/
def directoryIn (root f : FilePath) : FilePath := (f.parent?).getD root

end FilePath

/-- Parts that share nothing and leave nothing out hold everything once. -/
theorem flatMap_filter_perm {α β : Type} {p : α → β → Bool} {parts : List α} {items : List β}
    (hapart : parts.Pairwise fun a b => ∀ x ∈ items, ¬ (p a x ∧ p b x))
    (hall : ∀ x ∈ items, ∃ a ∈ parts, p a x) :
    (parts.flatMap fun a => items.filter (p a)).Perm items := by
  induction parts generalizing items with
  | nil =>
    have : items = [] := List.eq_nil_iff_forall_not_mem.mpr fun x hx => by simpa using hall x hx
    simp [this]
  | cons a parts ih =>
    obtain ⟨hfirst, hapart⟩ := List.pairwise_cons.mp hapart
    have hrest : ∀ b ∈ parts, items.filter (p b) = (items.filter (fun x => !p a x)).filter (p b) := by
      intro b hb
      rw [List.filter_filter]
      refine List.filter_congr fun x hx => ?_
      have := hfirst b hb x hx
      cases ha : p a x <;> simp_all
    rw [List.flatMap_cons, List.flatMap_congr hrest]
    have hleft : ∀ x ∈ items.filter fun x => !p a x, ∃ b ∈ parts, p b x := by
      intro x hx
      obtain ⟨hmem, hnot⟩ := List.mem_filter.mp hx
      obtain ⟨b, hb, hpb⟩ := hall x hmem
      obtain rfl | hb := List.mem_cons.mp hb
      · simp [hpb] at hnot
      · exact ⟨b, hb, hpb⟩
    have hperm : (parts.flatMap fun b => (items.filter fun x => !p a x).filter (p b)).Perm
        (items.filter fun x => !p a x) :=
      ih (hapart.imp fun hab x hx => hab x (List.mem_of_mem_filter hx)) hleft
    exact (hperm.append_left _).trans (List.filter_append_perm (p a) items)

/-- Where no two are related, elements that are related stand at one place. -/
theorem index_eq_of_pairwise {α : Type} {R : α → α → Prop} (hsymm : ∀ {a b}, R a b → R b a)
    {items : List α} (hapart : items.Pairwise fun a b => ¬ R a b) {i j : Nat} {a b : α}
    (ha : items[i]? = some a) (hb : items[j]? = some b) (h : R a b) : i = j := by
  obtain ⟨hi, rfl⟩ := List.getElem?_eq_some_iff.mp ha
  obtain ⟨hj, rfl⟩ := List.getElem?_eq_some_iff.mp hb
  have hpairs := List.pairwise_iff_getElem.mp hapart
  rcases Nat.lt_trichotomy i j with hlt | heq | hlt
  · exact absurd h (hpairs i j hi hj hlt)
  · exact heq
  · exact absurd (hsymm h) (hpairs j i hj hi hlt)

open FilePath

variable {root dir f : FilePath} {files : List FilePath} {ds : List AudioDirectory}

/-- Where in a walk a directory is seen first. -/
def firstSeen (root : FilePath) (files : List FilePath) (dir : FilePath) : Nat :=
  files.findIdx fun f => dir.same (directoryIn root f)

/-- The files of a walk that lie in a directory. -/
def filesIn (root : FilePath) (files : List FilePath) (dir : FilePath) : List FilePath :=
  files.filter fun f => dir.same (directoryIn root f)

/-- The directories of the files found so far. -/
structure Filed (root : FilePath) (files : List FilePath) (ds : List AudioDirectory) : Prop where
  apart : ds.Pairwise fun a b => ¬ a.path.same b.path
  files_eq : ∀ d ∈ ds, d.files = filesIn root files d.path
  all : ∀ f ∈ files, ∃ d ∈ ds, d.path.same (directoryIn root f)
  inhabited : ∀ d ∈ ds, ∃ f ∈ files, d.path.same (directoryIn root f)
  inOrder : ds.Pairwise fun a b => firstSeen root files a.path < firstSeen root files b.path

/-- A file of a directory that is there goes to the end of it. -/
theorem addToDirectory_of_mem (hapart : ds.Pairwise fun a b => ¬ a.path.same b.path)
    (h : ∃ d ∈ ds, d.path.same dir) :
    addToDirectory dir f ds =
      ds.map fun d => if d.path.same dir then { d with files := d.files ++ [f] } else d := by
  induction ds with
  | nil => simp at h
  | cons d ds ih =>
    obtain ⟨hfirst, hapart⟩ := List.pairwise_cons.mp hapart
    rw [addToDirectory]
    by_cases hd : d.path.same dir
    · have hrest : ds.map (fun d => if d.path.same dir then { d with files := d.files ++ [f] } else d) =
          ds := by
        rw [List.map_congr_left (g := id), List.map_id]
        intro e he
        have : ¬ e.path.same dir := fun hsame => hfirst e he (same_trans hd (same_comm.mp hsame))
        simp [this]
      simp [hd, hrest]
    · obtain ⟨e, he, hsame⟩ := h
      obtain rfl | he := List.mem_cons.mp he
      · exact absurd hsame hd
      · simp [hd, ih hapart ⟨e, he, hsame⟩]

theorem addToDirectory_of_not_mem (h : ∀ d ∈ ds, ¬ d.path.same dir) :
    addToDirectory dir f ds = ds ++ [⟨dir, [f]⟩] := by
  induction ds with
  | nil => rfl
  | cons d ds ih =>
    have hd : ¬ d.path.same dir := h d (.head _)
    have hrest := ih fun e he => h e (.tail _ he)
    simp [addToDirectory, hd, hrest]

theorem firstSeen_lt (h : ∃ f ∈ files, dir.same (directoryIn root f)) :
    firstSeen root files dir < files.length := by
  obtain ⟨f, hf, hsame⟩ := h
  exact List.findIdx_lt_length_of_exists ⟨f, hf, hsame⟩

/-- What was seen is not seen any later when more files are found. -/
theorem firstSeen_append (h : ∃ f ∈ files, dir.same (directoryIn root f)) (more : List FilePath) :
    firstSeen root (files ++ more) dir = firstSeen root files dir := by
  have hlt := firstSeen_lt h
  unfold firstSeen at *
  rw [List.findIdx_append, if_pos hlt]

theorem filesIn_concat (root : FilePath) (files : List FilePath) (f dir : FilePath) :
    filesIn root (files ++ [f]) dir =
      filesIn root files dir ++ if dir.same (directoryIn root f) then [f] else [] := by
  unfold filesIn
  rw [List.filter_append]
  by_cases h : dir.same (directoryIn root f) <;> simp [h]

theorem firstSeen_new (h : ∀ f ∈ files, ¬ dir.same (directoryIn root f)) (f : FilePath) :
    firstSeen root (files ++ [f]) dir = files.length + if dir.same (directoryIn root f) then 0 else 1 := by
  have hnone : files.findIdx (fun f => dir.same (directoryIn root f)) = files.length :=
    List.findIdx_eq_length_of_false fun g hg => by simpa using h g hg
  unfold firstSeen
  rw [List.findIdx_append, hnone, if_neg (Nat.lt_irrefl _), List.findIdx_singleton, Nat.add_comm]

namespace Filed

/-- One more file in a directory that is there. -/
theorem add_known (h : Filed root files ds) (hmem : ∃ d ∈ ds, d.path.same (directoryIn root f)) :
    Filed root (files ++ [f]) (ds.map fun d =>
      if d.path.same (directoryIn root f) then { d with files := d.files ++ [f] } else d) := by
  have hpath : ∀ d : AudioDirectory, (if d.path.same (directoryIn root f) then
      { d with files := d.files ++ [f] } else d).path = d.path := by
    intro d
    split <;> rfl
  have himage : ∀ {q : FilePath}, (∃ d ∈ ds, d.path.same q) →
      ∃ e ∈ ds.map (fun d => if d.path.same (directoryIn root f) then
        { d with files := d.files ++ [f] } else d), e.path.same q := by
    rintro q ⟨d, hd, hsame⟩
    exact ⟨_, List.mem_map_of_mem hd, by rwa [hpath]⟩
  refine ⟨?_, ?_, ?_, ?_, ?_⟩
  · rw [List.pairwise_map]
    simpa only [hpath] using h.apart
  · intro e he
    obtain ⟨d, hd, rfl⟩ := List.mem_map.mp he
    rw [hpath, filesIn_concat, ← h.files_eq d hd]
    split <;> simp
  · intro g hg
    obtain hg | hg := List.mem_append.mp hg
    · exact himage (h.all g hg)
    · obtain rfl := List.mem_singleton.mp hg
      exact himage hmem
  · intro e he
    obtain ⟨d, hd, rfl⟩ := List.mem_map.mp he
    obtain ⟨g, hg, hsame⟩ := h.inhabited d hd
    exact ⟨g, List.mem_append_left _ hg, by rwa [hpath]⟩
  · rw [List.pairwise_map]
    refine h.inOrder.imp_of_mem fun {a b} ha hb hab => ?_
    rw [hpath, hpath, firstSeen_append (h.inhabited a ha), firstSeen_append (h.inhabited b hb)]
    exact hab

/-- The first file of another directory. -/
theorem add_new (h : Filed root files ds) (hnone : ∀ d ∈ ds, ¬ d.path.same (directoryIn root f)) :
    Filed root (files ++ [f]) (ds ++ [⟨directoryIn root f, [f]⟩]) := by
  have hunseen : ∀ g ∈ files, ¬ (directoryIn root f).same (directoryIn root g) := by
    intro g hg hsame
    obtain ⟨d, hd, hd'⟩ := h.all g hg
    exact hnone d hd (same_trans hd' (same_comm.mp hsame))
  refine ⟨?_, ?_, ?_, ?_, ?_⟩
  · rw [List.pairwise_append]
    refine ⟨h.apart, List.pairwise_singleton _ _, fun d hd e he => ?_⟩
    obtain rfl := List.mem_singleton.mp he
    exact hnone d hd
  · intro d hd
    obtain hd | hd := List.mem_append.mp hd
    · rw [filesIn_concat, if_neg (hnone d hd), List.append_nil]
      exact h.files_eq d hd
    · obtain rfl := List.mem_singleton.mp hd
      have hempty : filesIn root files (directoryIn root f) = [] := List.filter_eq_nil_iff.mpr hunseen
      simp [filesIn_concat, hempty, same_refl]
  · intro g hg
    obtain hg | hg := List.mem_append.mp hg
    · obtain ⟨d, hd, hsame⟩ := h.all g hg
      exact ⟨d, List.mem_append_left _ hd, hsame⟩
    · obtain rfl := List.mem_singleton.mp hg
      exact ⟨_, List.mem_append_right _ (.head _), same_refl _⟩
  · intro d hd
    obtain hd | hd := List.mem_append.mp hd
    · obtain ⟨g, hg, hsame⟩ := h.inhabited d hd
      exact ⟨g, List.mem_append_left _ hg, hsame⟩
    · obtain rfl := List.mem_singleton.mp hd
      exact ⟨f, by simp, same_refl _⟩
  · rw [List.pairwise_append]
    refine ⟨?_, List.pairwise_singleton _ _, fun d hd e he => ?_⟩
    · refine h.inOrder.imp_of_mem fun {a b} ha hb hab => ?_
      rw [firstSeen_append (h.inhabited a ha), firstSeen_append (h.inhabited b hb)]
      exact hab
    · obtain rfl := List.mem_singleton.mp he
      rw [firstSeen_append (h.inhabited d hd), firstSeen_new hunseen]
      exact Nat.lt_of_lt_of_le (firstSeen_lt (h.inhabited d hd)) (Nat.le_add_right _ _)

theorem add (h : Filed root files ds) (f : FilePath) :
    Filed root (files ++ [f]) (addToDirectory (directoryIn root f) f ds) := by
  by_cases hmem : ∃ d ∈ ds, d.path.same (directoryIn root f)
  · rw [addToDirectory_of_mem h.apart hmem]
    exact h.add_known hmem
  · have hnone : ∀ d ∈ ds, ¬ d.path.same (directoryIn root f) := fun d hd hsame => hmem ⟨d, hd, hsame⟩
    rw [addToDirectory_of_not_mem hnone]
    exact h.add_new hnone

/-- A directory that is looked up is found under any spelling; one that was not seen has no files. -/
theorem filesOf_eq (h : Filed root files ds) (dir : FilePath) :
    filesOf ds dir = filesIn root files dir := by
  unfold filesOf
  cases hfind : ds.find? (·.path.same dir) with
  | some d =>
    have hsame : d.path.same dir := by simpa using List.find?_some hfind
    rw [Option.map_some, Option.getD_some, h.files_eq d (List.mem_of_find?_eq_some hfind)]
    refine List.filter_congr fun g _ => ?_
    exact same_congr hsame _
  | none =>
    rw [List.find?_eq_none] at hfind
    refine (List.filter_eq_nil_iff.mpr fun g hg hsame => ?_).symm
    obtain ⟨d, hd, hd'⟩ := h.all g hg
    exact hfind d hd (same_trans hd' (same_comm.mp hsame))

theorem files_ne_nil (h : Filed root files ds) {d : AudioDirectory} (hd : d ∈ ds) : d.files ≠ [] := by
  obtain ⟨f, hf, hsame⟩ := h.inhabited d hd
  rw [h.files_eq d hd]
  exact List.ne_nil_of_mem (List.mem_filter.mpr ⟨hf, hsame⟩)

end Filed

theorem filed_byDirectory (root : FilePath) (files : List FilePath) :
    Filed root files (byDirectory root files) := by
  induction files using List.reverseRecOn with
  | nil => exact ⟨.nil, by simp [byDirectory], by simp, by simp [byDirectory], .nil⟩
  | append_singleton files f ih =>
    rw [byDirectory, List.foldl_append]
    exact ih.add f

end MusicImport
