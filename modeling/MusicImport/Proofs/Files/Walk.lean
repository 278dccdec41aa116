import MusicImport.Files.Tree

/-! What a walk finds when a tree grows or loses files. A tree that has everything another one has
leads every path to the same place; taking a file away breaks no walk to another place. -/
namespace MusicImport
namespace FileTree

variable {t t' u : FileTree} {followLast : Bool} {fuel : Nat} {a p q : Place}

/-- The content of the file at a place. -/
def contentAt? (t : FileTree) (p : Place) : Option ByteArray :=
  match t.nodeAt? p with
  | some (.file c) => some c
  | _ => none

theorem contentAt?_eq_some {c : ByteArray} :
    t.contentAt? p = some c ↔ t.nodeAt? p = some (.file c) := by
  unfold contentAt?
  split <;> simp_all

@[simp] theorem nodeAt?_root (t : FileTree) : t.nodeAt? [] = some .directory := rfl

/-- There are no symbolic links. -/
def NoLinks (t : FileTree) : Prop := ∀ p target, t.nodeAt? p ≠ some (.link target)

/-- The second tree has what the first has, apart from the contents of files, and no link
besides. -/
structure Extends (t t' : FileTree) : Prop where
  workingDirectory : t'.workingDirectory = t.workingDirectory
  readOnly : t'.readOnly = t.readOnly
  defects : t'.defects = t.defects
  directory : ∀ p, t.nodeAt? p = some .directory → t'.nodeAt? p = some .directory
  file : ∀ p c, t.nodeAt? p = some (.file c) → ∃ c', t'.nodeAt? p = some (.file c')
  link : ∀ p target, t'.nodeAt? p = some (.link target) ↔ t.nodeAt? p = some (.link target)

namespace Extends

theorem refl (t : FileTree) : Extends t t :=
  ⟨rfl, rfl, rfl, fun _ h => h, fun _ c h => ⟨c, h⟩, fun _ _ => Iff.rfl⟩

theorem trans (h : Extends t u) (h' : Extends u t') : Extends t t' where
  workingDirectory := h'.workingDirectory.trans h.workingDirectory
  readOnly := h'.readOnly.trans h.readOnly
  defects := h'.defects.trans h.defects
  directory p hp := h'.directory p (h.directory p hp)
  file p c hp := by
    obtain ⟨d, hd⟩ := h.file p c hp
    exact h'.file p d hd
  link p target := (h'.link p target).trans (h.link p target)

theorem noLinks (h : Extends t t') (ht : t.NoLinks) : t'.NoLinks :=
  fun p target hp => ht p target ((h.link p target).mp hp)

theorem isKept (h : Extends t t') (p : Place) : t'.isKept p = t.isKept p := by
  simp [FileTree.isKept, h.readOnly]

theorem defectAt? (h : Extends t t') (p : Place) : t'.defectAt? p = t.defectAt? p := by
  simp [FileTree.defectAt?, h.defects]

theorem exists_node (h : Extends t t') {n : Node} (hn : t.nodeAt? p = some n) :
    ∃ n', t'.nodeAt? p = some n' := by
  cases n with
  | file c =>
    obtain ⟨c', hc⟩ := h.file p c hn
    exact ⟨_, hc⟩
  | directory => exact ⟨_, h.directory p hn⟩
  | link target => exact ⟨_, (h.link p target).mpr hn⟩

/-- What is a directory in the larger tree is none other in the smaller one. -/
theorem directory_of_some (h : Extends t t') {n : Node} (hn : t.nodeAt? p = some n)
    (hp : t'.nodeAt? p = some .directory) : t.nodeAt? p = some .directory := by
  cases n with
  | file c =>
    obtain ⟨c', hc⟩ := h.file p c hn
    simp [hc] at hp
  | directory => exact hn
  | link target => simp [(h.link p target).mpr hn] at hp

end Extends

/-- A walk ends at the place that its last name leads to, whatever is there, if it is no link. -/
theorem walk_last {name : String} (h : ∀ target, t.nodeAt? (a ++ [name]) ≠ some (.link target)) :
    t.walk followLast (fuel + 1) a [.down name] = .ok (a ++ [name]) := by
  simp only [walk]
  split
  · simp
  · rfl
  · exact absurd ‹_› (h _)
  · rfl

/-- A step down leads into a directory, on along a link, or to the end of the walk. -/
theorem walk_down {name : String} {rest : List Step}
    (h : t.walk followLast (fuel + 1) a (.down name :: rest) = .ok p) :
    (t.nodeAt? (a ++ [name]) = some .directory ∧ t.walk followLast fuel (a ++ [name]) rest = .ok p) ∨
    (∃ target, t.nodeAt? (a ++ [name]) = some (.link target) ∧
      (rest.isEmpty && !followLast) = false ∧
      t.walk followLast fuel (origin target a) (steps target ++ rest) = .ok p) ∨
    (rest = [] ∧ p = a ++ [name] ∧
      (followLast = true → ∀ target, t.nodeAt? p ≠ some (.link target))) := by
  simp only [walk] at h
  cases hn : t.nodeAt? (a ++ [name]) with
  | none =>
    simp only [hn] at h
    split at h
    next hr =>
      cases h
      exact .inr (.inr ⟨by simpa using hr, rfl, by simp [hn]⟩)
    · cases h
  | some n =>
    simp only [hn] at h
    cases n with
    | file c =>
      simp only at h
      split at h
      next hr =>
        cases h
        exact .inr (.inr ⟨by simpa using hr, rfl, by simp [hn]⟩)
      · cases h
    | directory => exact .inl ⟨rfl, h⟩
    | link target =>
      simp only at h
      split at h
      next hr =>
        cases h
        have hr : rest = [] ∧ followLast = false := by simpa using hr
        exact .inr (.inr ⟨hr.1, rfl, by simp [hr.2]⟩)
      next hr => exact .inr (.inl ⟨target, rfl, by simpa using hr, h⟩)

/-- A walk passes over directories and links only. Where these are kept, and no link comes to its
end, it leads to the same place. -/
theorem walk_transfer
    (hd : ∀ r, t.nodeAt? r = some .directory → t'.nodeAt? r = some .directory)
    (hl : ∀ r target, t.nodeAt? r = some (.link target) → t'.nodeAt? r = some (.link target))
    (hp : ∀ target, t'.nodeAt? p = some (.link target) → t.nodeAt? p = some (.link target))
    {steps : List Step} (hw : t.walk followLast fuel a steps = .ok p) :
    t'.walk followLast fuel a steps = .ok p := by
  induction fuel generalizing a steps with
  | zero => cases steps <;> simp_all [walk]
  | succ fuel ih =>
    match steps with
    | [] => simpa using hw
    | .stay :: rest => exact ih hw
    | .up :: rest => exact ih hw
    | .down name :: rest =>
      obtain ⟨hn, h⟩ | ⟨target, hn, hr, h⟩ | ⟨rfl, rfl, h⟩ := walk_down hw
      · simpa only [walk, hd _ hn] using ih h
      · simpa [walk, hl _ _ hn, hr] using ih h
      · simp only [walk]
        split
        · simp
        · rfl
        next target hn =>
          have : followLast = false := by simpa using fun hf => h hf target (hp target hn)
          simp [this]
        · rfl

theorem locate_transfer
    (hd : ∀ r, t.nodeAt? r = some .directory → t'.nodeAt? r = some .directory)
    (hl : ∀ r target, t.nodeAt? r = some (.link target) → t'.nodeAt? r = some (.link target))
    (hp : ∀ target, t'.nodeAt? p = some (.link target) → t.nodeAt? p = some (.link target))
    (hc : t'.workingDirectory = t.workingDirectory) {path : FilePath}
    (h : t.locate path followLast = .ok p) : t'.locate path followLast = .ok p := by
  unfold locate at h ⊢
  split at h
  · cases h
  · rw [if_neg ‹_›, hc]
    exact walk_transfer hd hl hp h

theorem locate_of_extends (h : Extends t t') {path : FilePath}
    (hp : t.locate path followLast = .ok p) : t'.locate path followLast = .ok p :=
  locate_transfer h.directory (fun r x => (h.link r x).mpr) (fun x => (h.link p x).mp)
    h.workingDirectory hp

theorem exists?_of_extends {path : FilePath} (h : Extends t t') (hp : t.exists? path) : t'.exists? path := by
  unfold exists? find? at *
  cases hl : t.locate path with
  | error e => simp [hl] at hp
  | ok q =>
    rw [hl] at hp
    obtain ⟨n, hn⟩ := Option.isSome_iff_exists.mp hp
    obtain ⟨m, hm⟩ := h.exists_node hn
    simp [locate_of_extends h hl, hm]

/-- A path to something that is there leads to it in a tree with more in it, too. -/
theorem locate_of_subset (hs : ∀ p n, t'.nodeAt? p = some n → t.nodeAt? p = some n)
    (hc : t'.workingDirectory = t.workingDirectory) {path : FilePath}
    (hp : t'.locate path followLast = .ok p) {n : Node} (hn : t'.nodeAt? p = some n) :
    t.locate path followLast = .ok p := by
  refine locate_transfer (fun r => hs r _) (fun r x => hs r _) (fun x hx => ?_) hc.symm hp
  rw [hs p n hn] at hx
  rw [hn, hx]

/-- No path to another place leads over a file. -/
theorem locate_erase {c : ByteArray} (hq : t.nodeAt? q = some (.file c)) (hp : p ≠ q)
    {path : FilePath} (h : t.locate path followLast = .ok p) :
    (t.erase q).locate path followLast = .ok p := by
  have keep {r : Place} {n : Node} (hr : t.nodeAt? r = some n) (hne : n ≠ .file c) :
      (t.erase q).nodeAt? r = some n := by
    rw [nodeAt?_erase_of_ne t (fun hrq => ?_), hr]
    rw [hrq, hq] at hr
    exact hne (Option.some.inj hr).symm
  refine locate_transfer (fun r hr => keep hr (by simp)) (fun r x hr => keep hr (by simp)) ?_ rfl h
  intro x hx
  rwa [nodeAt?_erase_of_ne t hp] at hx

/-- Without links it does not matter whether the last one is followed. -/
theorem walk_followLast (h : t.NoLinks) (steps : List Step) :
    t.walk followLast fuel a steps = t.walk true fuel a steps := by
  induction fuel generalizing a steps with
  | zero => cases steps <;> rfl
  | succ fuel ih =>
    match steps with
    | [] => rfl
    | .stay :: rest => exact ih rest
    | .up :: rest => exact ih rest
    | .down name :: rest =>
      simp only [walk]
      split
      · exact ih rest
      · rfl
      · exact absurd ‹_› (h _ _)
      · rfl

theorem locate_followLast (h : t.NoLinks) (path : FilePath) :
    t.locate path followLast = t.locate path := by
  unfold locate
  rw [walk_followLast h]

end FileTree
end MusicImport
