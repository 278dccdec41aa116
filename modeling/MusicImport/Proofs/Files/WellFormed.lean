import MusicImport.Proofs.Files.Walk

/-! Trees in which everything lies in directories. There a path without double dots, or with double
dots only up to a directory that is there, leads to nothing new but what was missing before: when
directories are made for it, it does not turn up at something that was there all along. -/
namespace MusicImport
namespace FileTree

variable {t t' : FileTree} {followLast : Bool} {fuel : Nat} {a p q : Place} {n : Node}

/-- Everything lies in directories, and the working directory is one. -/
structure WellFormed (t : FileTree) : Prop where
  parent : ∀ {p n}, t.nodeAt? p = some n → t.nodeAt? p.dropLast = some .directory
  workingDirectory : t.nodeAt? t.workingDirectory = some .directory

/-- A path starts from a directory. -/
theorem directory_origin (path : FilePath) (ha : t.nodeAt? a = some .directory) :
    t.nodeAt? (origin path a) = some .directory := by
  unfold origin
  split
  · rfl
  · exact ha

theorem node_mem (hp : p ≠ []) (h : t.nodeAt? p = some n) : (p, n) ∈ t.nodes := by
  unfold nodeAt? at h
  rw [if_neg hp] at h
  obtain ⟨⟨q, m⟩, hfind, rfl⟩ := Option.map_eq_some_iff.mp h
  have hq : q = p := by simpa using List.find?_some hfind
  exact hq ▸ List.mem_of_find?_eq_some hfind

/-- It is enough to look at the nodes that are listed. -/
theorem noLinks_of_nodes
    (h : t.nodes.all fun x => match x.2 with
      | .link _ => false
      | _ => true) : t.NoLinks := by
  intro p target hp
  have hne : p ≠ [] := by
    rintro rfl
    simp at hp
  have := List.all_eq_true.mp h _ (node_mem hne hp)
  cases this

namespace WellFormed

theorem of_nodes
    (h : t.nodes.all fun x => match t.nodeAt? x.1.dropLast with
      | some .directory => true
      | _ => false)
    (hw : t.nodeAt? t.workingDirectory = some .directory) : t.WellFormed := by
  refine ⟨fun {p n} hn => ?_, hw⟩
  by_cases hp : p = []
  · rw [hp]
    rfl
  · have hparent := List.all_eq_true.mp h _ (node_mem hp hn)
    split at hparent
    · assumption
    · cases hparent

theorem ancestor (h : t.WellFormed) {r : Place} (hr : r ≠ [])
    (hn : t.nodeAt? (p ++ r) = some n) : t.nodeAt? p = some .directory := by
  induction r generalizing p n with
  | nil => exact absurd rfl hr
  | cons name r ih =>
    rw [List.append_cons] at hn
    have hchild : ∃ m, t.nodeAt? (p ++ [name]) = some m := by
      by_cases hr : r = []
      · exact ⟨n, by simpa [hr] using hn⟩
      · exact ⟨_, ih hr hn⟩
    obtain ⟨m, hm⟩ := hchild
    simpa using h.parent hm

/-- Where a walk ends, something can be made: the place lies in a directory. -/
theorem parent_of_walk (h : t.WellFormed) {steps : List Step}
    (ha : t.nodeAt? a = some .directory) (hw : t.walk followLast fuel a steps = .ok p) :
    t.nodeAt? p.dropLast = some .directory := by
  induction fuel generalizing a steps with
  | zero =>
    cases steps with
    | nil =>
      obtain rfl : a = p := by simpa using hw
      exact h.parent ha
    | cons step rest => simp [walk] at hw
  | succ fuel ih =>
    cases steps with
    | nil =>
      obtain rfl : a = p := by simpa using hw
      exact h.parent ha
    | cons step rest =>
      cases step with
      | stay => exact ih ha hw
      | up => exact ih (h.parent ha) hw
      | down name =>
        obtain ⟨hn, hw⟩ | ⟨target, -, -, hw⟩ | ⟨-, rfl, -⟩ := walk_down hw
        · exact ih hn hw
        · exact ih (directory_origin target ha) hw
        · simpa using ha

theorem parent_of_locate (h : t.WellFormed) {path : FilePath}
    (hl : t.locate path followLast = .ok p) : t.nodeAt? p.dropLast = some .directory := by
  unfold locate at hl
  split at hl
  · cases hl
  · exact h.parent_of_walk (directory_origin path h.workingDirectory) hl

/-- A node in a directory, in the place of none or of a file. -/
theorem put (h : t.WellFormed) (hp : t.nodeAt? p.dropLast = some .directory)
    (hd : t.nodeAt? p ≠ some .directory) (n : Node) : (t.put p n).WellFormed := by
  have keep {q : Place} (hq : t.nodeAt? q = some .directory) :
      (t.put p n).nodeAt? q = some .directory := by
    have hqp : q ≠ p := by
      rintro rfl
      exact hd hq
    rw [nodeAt?_put_of_ne t n hqp, hq]
  refine ⟨fun {q m} hq => ?_, keep h.workingDirectory⟩
  by_cases hqp : q = p
  · exact keep (hqp ▸ hp)
  · rw [nodeAt?_put_of_ne t n hqp] at hq
    exact keep (h.parent hq)

end WellFormed

/-- Behind its last double dot a path goes on from a directory that is there. -/
def Direct (t : FileTree) (path : FilePath) : Prop :=
  ∃ before after a, steps path = before ++ after ∧ Step.up ∉ after ∧
    t.walk true walkFuel (origin path t.workingDirectory) before = .ok a ∧
    t.nodeAt? a = some .directory

/-- The first part of a walk, which leads to a directory, in all larger trees at once. -/
theorem walk_append {before : List Step} (hw : t.walk true fuel p before = .ok a)
    (ha : t.nodeAt? a = some .directory) : ∃ rest, ∀ t', Extends t t' → ∀ after,
      t'.walk true fuel p (before ++ after) = t'.walk true rest a after := by
  induction fuel generalizing p before with
  | zero =>
    cases before with
    | nil =>
      obtain rfl : p = a := by simpa using hw
      exact ⟨0, fun _ _ _ => rfl⟩
    | cons step rest => simp [walk] at hw
  | succ fuel ih =>
    cases before with
    | nil =>
      obtain rfl : p = a := by simpa using hw
      exact ⟨fuel + 1, fun _ _ _ => rfl⟩
    | cons step rest =>
      cases step with
      | stay => exact ih hw
      | up => exact ih hw
      | down name =>
        obtain ⟨hn, hw⟩ | ⟨target, hn, -, hw⟩ | ⟨rfl, rfl, -⟩ := walk_down hw
        · obtain ⟨k, hk⟩ := ih hw
          refine ⟨k, fun t' ht after => ?_⟩
          simpa only [List.cons_append, walk, ht.directory _ hn] using hk t' ht after
        · obtain ⟨k, hk⟩ := ih hw
          refine ⟨k, fun t' ht after => ?_⟩
          simpa [walk, (ht.link _ target).mpr hn] using hk t' ht after
        · refine ⟨fuel, fun t' ht after => ?_⟩
          simp only [List.cons_append, List.nil_append, walk, ht.directory _ ha]

/-- Without links and double dots a walk only goes down. -/
theorem prefix_of_walk (hl : t.NoLinks) {steps : List Step} (hu : Step.up ∉ steps)
    (hw : t.walk true fuel a steps = .ok q) : a <+: q := by
  induction fuel generalizing a steps with
  | zero =>
    cases steps with
    | nil =>
      obtain rfl : a = q := by simpa using hw
      exact List.prefix_refl a
    | cons step rest => simp [walk] at hw
  | succ fuel ih =>
    cases steps with
    | nil =>
      obtain rfl : a = q := by simpa using hw
      exact List.prefix_refl a
    | cons step rest =>
      cases step with
      | stay => exact ih (by simpa using hu) hw
      | up => simp at hu
      | down name =>
        obtain ⟨-, hw⟩ | ⟨target, hn, -, -⟩ | ⟨-, rfl, -⟩ := walk_down hw
        · exact (List.prefix_append a [name]).trans (ih (by simpa using hu) hw)
        · exact absurd hn (hl _ _)
        · exact List.prefix_append a [name]

/-- Without double dots, a path that leads to something old leads there at once. -/
theorem walk_direct (h : t.WellFormed) (hl : t.NoLinks) (ht : Extends t t') {steps : List Step}
    (hu : Step.up ∉ steps) (hw : t'.walk true fuel a steps = .ok q)
    (hq : t.nodeAt? q = some n) : t.walk true fuel a steps = .ok q := by
  induction fuel generalizing a steps with
  | zero => cases steps <;> simp_all [walk]
  | succ fuel ih =>
    cases steps with
    | nil => simpa using hw
    | cons step rest =>
      cases step with
      | stay => exact ih (by simpa using hu) hw
      | up => simp at hu
      | down name =>
        have hrest : Step.up ∉ rest := by simpa using hu
        obtain ⟨hn, hw⟩ | ⟨target, hn, -, -⟩ | ⟨rfl, rfl, -⟩ := walk_down hw
        · -- what lies below the place was there before, so the place was a directory before
          obtain ⟨r, rfl⟩ := prefix_of_walk (ht.noLinks hl) hrest hw
          have hd : t.nodeAt? (a ++ [name]) = some .directory := by
            by_cases hr : r = []
            · exact ht.directory_of_some (by simpa [hr] using hq) hn
            · exact h.ancestor hr hq
          simpa only [walk, hd] using ih hrest hw
        · exact absurd hn (ht.noLinks hl _ _)
        · exact walk_last (hl _)

/-- When a tree grows, a direct path does not turn up at something that was there all along. -/
theorem Direct.locate (h : t.WellFormed) (hl : t.NoLinks) (ht : Extends t t') {path : FilePath}
    (hd : t.Direct path) (hp : t'.locate path = .ok q) (hq : t.nodeAt? q = some n) :
    t.locate path = .ok q := by
  obtain ⟨before, after, a, hsteps, hu, hw, ha⟩ := hd
  obtain ⟨k, hk⟩ := walk_append hw ha
  unfold FileTree.locate at hp ⊢
  split at hp
  · cases hp
  next htext =>
    rw [if_neg htext, hsteps, hk t (.refl t)]
    rw [hsteps, ht.workingDirectory, hk t' ht] at hp
    exact walk_direct h hl ht hu hp hq

end FileTree
end MusicImport
