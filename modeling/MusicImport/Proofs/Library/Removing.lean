import MusicImport.Library.Transfer
import MusicImport.Proofs.Files.Passing

/-! Removing files by their paths. What is gone afterwards is what the paths led to; as long as none of
them is a link, removing one file leaves the other paths as they were. -/
namespace MusicImport
namespace FileTree

variable {t t' : FileTree} {paths : List FilePath} {path : FilePath} {p q : Place} {n : Node}
  {c : ByteArray}

theorem remove_cases (t : FileTree) (path : FilePath) :
    (t.remove path).toOption.getD t = t ∨
      ∃ q n, t.locate path false = .ok q ∧ t.nodeAt? q = some n ∧ n ≠ .directory ∧
        t.isKept q = false ∧ (t.remove path).toOption.getD t = t.erase q := by
  cases h : t.remove path with
  | error e => exact .inl rfl
  | ok u =>
    obtain ⟨q, n, hq, hn, hd, hk, rfl⟩ := remove_ok h
    exact .inr ⟨q, n, hq, hn, hd, hk, rfl⟩

theorem ne_root (hn : t.nodeAt? q = some n) (hd : n ≠ .directory) : q ≠ [] := by
  rintro rfl
  exact hd (Option.some.inj hn).symm

theorem nodeAt?_of_erase (h : (t.erase p).nodeAt? q = some n) (hp : p ≠ []) :
    t.nodeAt? q = some n := by
  by_cases hqp : q = p
  · simp [hqp, hp] at h
  · rwa [nodeAt?_erase_of_ne t hqp] at h

/-- Removing what is no directory adds nothing. -/
theorem nodeAt?_of_remove (h : ((t.remove path).toOption.getD t).nodeAt? q = some n) :
    t.nodeAt? q = some n := by
  obtain he | ⟨r, m, -, hm, hd, -, he⟩ := remove_cases t path
  · rwa [he] at h
  · rw [he] at h
    exact nodeAt?_of_erase h (ne_root hm hd)

theorem removeFiles_cons (t : FileTree) (path : FilePath) (paths : List FilePath) :
    t.removeFiles (path :: paths) = ((t.remove path).toOption.getD t).removeFiles paths := rfl

/-- Removing files changes nothing but what is at places. -/
theorem removeFiles_only (t : FileTree) (paths : List FilePath) :
    t.removeFiles paths = { t with nodes := (t.removeFiles paths).nodes } := by
  induction paths generalizing t with
  | nil => rfl
  | cons path paths ih =>
    obtain he | ⟨r, m, -, -, -, -, he⟩ := remove_cases t path
    · rw [removeFiles_cons, he]
      exact ih t
    · rw [removeFiles_cons, he]
      exact ih (t.erase r)

@[simp] theorem removeFiles_workingDirectory (t : FileTree) (paths : List FilePath) :
    (t.removeFiles paths).workingDirectory = t.workingDirectory := by
  rw [removeFiles_only]

@[simp] theorem removeFiles_readOnly (t : FileTree) (paths : List FilePath) :
    (t.removeFiles paths).readOnly = t.readOnly := by
  rw [removeFiles_only]

@[simp] theorem removeFiles_defects (t : FileTree) (paths : List FilePath) :
    (t.removeFiles paths).defects = t.defects := by
  rw [removeFiles_only]

theorem nodeAt?_of_removeFiles (h : (t.removeFiles paths).nodeAt? q = some n) :
    t.nodeAt? q = some n := by
  induction paths generalizing t with
  | nil => exact h
  | cons path paths ih => exact nodeAt?_of_remove (ih h)

/-- What is gone is what one of the paths led to in the beginning. -/
theorem removed_of_removeFiles (hn : t.nodeAt? q = some n)
    (h : (t.removeFiles paths).nodeAt? q = none) :
    ∃ p ∈ paths, t.locate p false = .ok q ∧ n ≠ .directory ∧ t.isKept q = false := by
  induction paths generalizing t with
  | nil => simp [removeFiles, hn] at h
  | cons path paths ih =>
    rw [removeFiles_cons] at h
    obtain he | ⟨r, m, hr, hm, hd, hk, he⟩ := remove_cases t path
    · rw [he] at h
      obtain ⟨p, hp, rest⟩ := ih hn h
      exact ⟨p, .tail _ hp, rest⟩
    · by_cases hqr : q = r
      · subst hqr
        obtain rfl : n = m := by simpa [hn] using hm
        exact ⟨path, .head _, hr, hd, hk⟩
      · rw [he] at h
        have hn' : (t.erase r).nodeAt? q = some n := by rwa [nodeAt?_erase_of_ne t hqr]
        obtain ⟨p, hp, hl, rest⟩ := ih hn' h
        refine ⟨p, .tail _ hp, ?_, rest⟩
        exact locate_of_subset (fun s m hs => nodeAt?_of_erase hs (ne_root hm hd)) rfl hl hn'

/-- The places that are emptied when files are removed, each path followed at its turn. -/
def taken (t : FileTree) : List FilePath → List Place
  | [] => []
  | path :: paths =>
    match t.remove path with
    | .ok u => (t.locate path false).toOption.toList ++ u.taken paths
    | .error _ => t.taken paths

/-- A place that is emptied is one that a path led to in the beginning, and no directory. -/
theorem mem_taken (h : q ∈ t.taken paths) :
    ∃ path ∈ paths, t.locate path false = .ok q ∧ ∃ n, t.nodeAt? q = some n ∧ n ≠ .directory := by
  induction paths generalizing t with
  | nil => cases h
  | cons path paths ih =>
    unfold taken at h
    split at h
    next u hu =>
      obtain ⟨r, n, hr, hn, hd, -, rfl⟩ := remove_ok hu
      have hroot := ne_root hn hd
      rw [hr] at h
      obtain h | h := List.mem_append.mp h
      · obtain rfl : q = r := by simpa [Except.toOption] using h
        exact ⟨path, .head _, hr, n, hn, hd⟩
      · obtain ⟨y, hy, hl, m, hm, hmd⟩ := ih h
        have hsub := fun s k (hs : (t.erase r).nodeAt? s = some k) => nodeAt?_of_erase hs hroot
        exact ⟨y, .tail _ hy, locate_of_subset hsub rfl hl hm, m, hsub q m hm, hmd⟩
    · obtain ⟨y, hy, rest⟩ := ih h
      exact ⟨y, .tail _ hy, rest⟩

/-- Among all files, exactly those are still read by a path that does not come to an emptied place. -/
theorem read_removeFiles (t : FileTree) (paths : List FilePath) :
    (t.removeFiles paths).read path = .ok c ↔
      t.read path = .ok c ∧ ∀ q ∈ t.taken paths, q ∉ t.passes path := by
  induction paths generalizing t with
  | nil => simp [removeFiles, taken]
  | cons first paths ih =>
    rw [removeFiles_cons, taken]
    cases hr : t.remove first with
    | error e => exact ih t
    | ok u =>
      obtain ⟨q, n, hq, hn, hd, -, rfl⟩ := remove_ok hr
      rw [hq]
      simp only [Except.toOption, Option.getD_some, Option.toList_some, List.cons_append, List.nil_append,
        List.forall_mem_cons]
      rw [ih, read_erase (ne_root hn hd), and_assoc, and_congr_right_iff]
      intro _
      rw [and_congr_right_iff]
      intro hnot
      rw [passes_erase hnot]

/-- None of the paths is a link. -/
def Plain (t : FileTree) (paths : List FilePath) : Prop :=
  ∀ p ∈ paths, ∀ q target, t.locate p false = .ok q → t.nodeAt? q ≠ some (.link target)

theorem NoLinks.plain (h : t.NoLinks) (paths : List FilePath) : t.Plain paths :=
  fun _ _ q target _ => h q target

/-- What remains after the first removal. -/
private theorem Plain.remove_cases (h : t.Plain (path :: paths)) :
    (t.remove path).toOption.getD t = t ∨
      ∃ q c, t.locate path false = .ok q ∧ t.nodeAt? q = some (.file c) ∧ t.isKept q = false ∧
        (t.remove path).toOption.getD t = t.erase q := by
  obtain he | ⟨q, n, hq, hn, hd, hk, he⟩ := FileTree.remove_cases t path
  · exact .inl he
  · cases n with
    | file c => exact .inr ⟨q, c, hq, hn, hk, he⟩
    | directory => exact absurd rfl hd
    | link target => exact absurd hn (h path (.head _) q target hq)

private theorem Plain.tail (h : t.Plain (path :: paths)) :
    ((t.remove path).toOption.getD t).Plain paths := by
  obtain he | ⟨q, c, -, hn, -, he⟩ := h.remove_cases
  · rw [he]
    exact fun p hp => h p (.tail _ hp)
  · rw [he]
    intro p hp r target hr hlink
    have hsub := fun s m (hs : (t.erase q).nodeAt? s = some m) => nodeAt?_of_erase hs (ne_root hn (by simp))
    exact h p (.tail _ hp) r target (locate_of_subset hsub rfl hr hlink) (hsub r _ hlink)

/-- Paths to what is still there are not broken. -/
theorem Plain.locate (h : t.Plain paths) {followLast : Bool}
    (hp : t.locate path followLast = .ok p) (hn : (t.removeFiles paths).nodeAt? p ≠ none) :
    (t.removeFiles paths).locate path followLast = .ok p := by
  induction paths generalizing t with
  | nil => exact hp
  | cons first paths ih =>
    rw [removeFiles_cons] at hn ⊢
    refine ih h.tail ?_ hn
    obtain he | ⟨q, c, -, hq, -, he⟩ := h.remove_cases
    · rwa [he]
    · rw [he] at hn ⊢
      refine locate_erase hq (fun hpq => ?_) hp
      have hne : q ≠ [] := ne_root hq (by simp)
      obtain ⟨m, hm⟩ := Option.ne_none_iff_exists'.mp hn
      have := nodeAt?_of_removeFiles hm
      simp [hpq, hne] at this

/-- A file is gone if one of the paths leads to it and its directory allows that. -/
theorem Plain.removed (h : t.Plain paths) (hp : path ∈ paths)
    (hq : t.locate path false = .ok q) (hc : t.contentAt? q = some c) (hk : t.isKept q = false) :
    (t.removeFiles paths).nodeAt? q = none := by
  induction paths generalizing t with
  | nil => cases hp
  | cons first paths ih =>
    rw [removeFiles_cons]
    cases hp with
    | head =>
      have hne : q ≠ [] := ne_root (contentAt?_eq_some.mp hc) (by simp)
      have he : (t.remove path).toOption.getD t = t.erase q := by
        simp [remove_file hq hc, hk, Except.toOption]
      rw [he]
      cases hn : ((t.erase q).removeFiles paths).nodeAt? q with
      | none => rfl
      | some m => simpa [hne] using nodeAt?_of_removeFiles hn
    | tail _ hp =>
      obtain he | ⟨r, d, hr, hd, -, he⟩ := h.remove_cases
      · have htail : t.Plain paths := fun p hp => h p (.tail _ hp)
        rw [he]
        exact ih htail hp hq hc hk
      · have htail : (t.erase r).Plain paths := by
          rw [← he]
          exact h.tail
        rw [he]
        by_cases hqr : q = r
        · have hne : r ≠ [] := ne_root hd (by simp)
          cases hn : ((t.erase r).removeFiles paths).nodeAt? q with
          | none => rfl
          | some m => simpa [hqr, hne] using nodeAt?_of_removeFiles hn
        · exact ih htail hp (locate_erase hd hqr hq) (by rwa [contentAt?_erase_of_ne t hqr]) hk

/-- Without links among the paths, exactly the files that they lead to are gone. -/
theorem Plain.removed_iff (h : t.Plain paths) (hc : t.contentAt? q = some c) :
    (t.removeFiles paths).nodeAt? q = none ↔
      t.isKept q = false ∧ ∃ p ∈ paths, t.locate p false = .ok q := by
  constructor
  · intro hn
    obtain ⟨p, hp, hl, -, hk⟩ := removed_of_removeFiles (contentAt?_eq_some.mp hc) hn
    exact ⟨hk, p, hp, hl⟩
  · rintro ⟨hk, p, hp, hl⟩
    exact h.removed hp hl hc hk

/-- Sources are removed like other files. -/
theorem removeSources_files (t : FileTree) (paths : List FilePath) :
    (t.removeSources paths).2 = t.removeFiles paths := by
  induction paths generalizing t with
  | nil => rfl
  | cons path paths ih =>
    rw [removeFiles_cons, removeSources]
    split <;> simp [*, Except.toOption]

/-- Where no removal is refused, no directory of a source is read only. -/
theorem Plain.removable (h : t.Plain paths) (hs : (t.removeSources paths).1 = none)
    (hp : path ∈ paths) (hq : t.locate path false = .ok q) (hc : t.contentAt? q = some c) :
    t.isKept q = false := by
  induction paths generalizing t with
  | nil => cases hp
  | cons first paths ih =>
    rw [removeSources] at hs
    cases hp with
    | head =>
      rw [remove_file hq hc] at hs
      cases hk : t.isKept q with
      | false => rfl
      | true => simp [hk] at hs
    | tail _ hp =>
      have hs : (((t.remove first).toOption.getD t).removeSources paths).1 = none := by
        split at hs <;> simp_all [Except.toOption]
      obtain he | ⟨r, d, hr, hd, hk, he⟩ := h.remove_cases
      · rw [he] at hs
        exact ih (fun p hp => h p (.tail _ hp)) hs hp hq hc
      · by_cases hqr : q = r
        · rwa [hqr]
        · have htail : (t.erase r).Plain paths := by
            rw [← he]
            exact h.tail
          have hc' : (t.erase r).contentAt? q = some c := by rwa [contentAt?_erase_of_ne t hqr]
          rw [he] at hs
          exact ih (t := t.erase r) htail hs hp (locate_erase hd hqr hq) hc'

/-- What can be read after files were removed could be read before. -/
theorem read_of_removeFiles (h : (t.removeFiles paths).read path = .ok c) :
    t.read path = .ok c := by
  obtain ⟨q, hq, hc⟩ := read_ok.mp h
  have hn := contentAt?_eq_some.mp hc
  refine read_ok.mpr ⟨q, ?_, contentAt?_eq_some.mpr (nodeAt?_of_removeFiles hn)⟩
  exact locate_of_subset (fun _ _ hn => nodeAt?_of_removeFiles hn)
    (removeFiles_workingDirectory t paths) hq hn

/-- After sources were removed, a path to a file leads to it still unless one of them lay there. -/
theorem Plain.read_iff (h : t.Plain paths) (hs : (t.removeSources paths).1 = none)
    (hq : t.locate path = .ok q) (hc : t.contentAt? q = some c) :
    (∃ d, (t.removeFiles paths).read path = .ok d) ↔ ∀ y ∈ paths, t.locate y false ≠ .ok q := by
  constructor
  · rintro ⟨d, hread⟩ y hy hl
    obtain ⟨r, hr, hrc⟩ := read_ok.mp hread
    have hn := contentAt?_eq_some.mp hrc
    have hr' := locate_of_subset (fun _ _ hn => nodeAt?_of_removeFiles hn)
      (removeFiles_workingDirectory t paths) hr hn
    obtain rfl : q = r := by simpa [hq] using hr'
    have hgone := h.removed hy hl hc (h.removable hs hy hl hc)
    simp [hgone] at hn
  · intro hno
    have hn : (t.removeFiles paths).nodeAt? q = some (.file c) := by
      cases hn : (t.removeFiles paths).nodeAt? q with
      | some n => rw [← contentAt?_eq_some.mp hc, nodeAt?_of_removeFiles hn]
      | none =>
        obtain ⟨-, y, hy, hl⟩ := (h.removed_iff hc).mp hn
        exact absurd hl (hno y hy)
    exact ⟨c, read_ok.mpr ⟨q, h.locate hq (by simp [hn]), contentAt?_eq_some.mpr hn⟩⟩

end FileTree
end MusicImport
