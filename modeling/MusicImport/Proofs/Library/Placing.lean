import MusicImport.Proofs.Library.Probing
import MusicImport.Proofs.Library.Removing

/-! Bringing files to their destinations. What a single placement does is said once, by `Placed`; a run
of placements is a list of them, each in the tree that the one before has left. -/
namespace MusicImport

namespace FileTree

variable {t t' u : FileTree} {source dest target path : FilePath} {claimed : List FilePath}
  {p q : Place} {strategy : FileStrategy} {verify : Bool} {x : Transfer} {c : ByteArray}

/-- What bringing one file to its destination may do: nothing, if it is there already or something
with the same content is; else the content of the source gets to a path that led nowhere. -/
inductive Placed (t : FileTree) (strategy : FileStrategy) (source dest : FilePath)
    (claimed : List FilePath) : Transfer → FileTree → Prop
  | inPlace (h : strategy = .reference ∨ source.same dest = true) :
      Placed t strategy source dest claimed ⟨source, source, .inPlace⟩ t
  | reused {target : FilePath} {c : ByteArray} (tried : Tried dest target)
      (unclaimed : isClaimed claimed target = false) (source_read : t.read source = .ok c)
      (target_read : t.read target = .ok c) :
      Placed t strategy source dest claimed ⟨source, target, .alreadyPresent⟩ t
  | copied {u : FileTree} {target : FilePath} {s q : Place} {c : ByteArray}
      (tried : Tried dest target) (absent : t.exists? target = false)
      (adds : AddsDirectories t u) (wellFormed : t.WellFormed → u.WellFormed)
      (source_at : u.locate source = .ok s) (content : u.contentAt? s = some c)
      (target_at : u.locate target = .ok q) (writable : u.Writable q) :
      Placed t strategy source dest claimed ⟨source, target, .copied⟩
        (u.put q (.file (if s = q then ByteArray.empty else c)))

theorem copyVerified_ok (h : t.copyVerified source dest verify = (.ok (), t')) :
    t.copy source dest = (.ok (), t') := by
  unfold copyVerified at h
  split at h
  · simp at h
  · simp at h
  next hc =>
    simp only [Prod.mk.injEq, true_and] at h
    rw [hc, h]
  next hc =>
    split at h
    · simp at h
    · split at h
      · simp only [Prod.mk.injEq, true_and] at h
        rw [hc, h]
      · simp at h

/-- The tree with the directory that a file goes to. -/
def withParent (t : FileTree) (target : FilePath) : Except IoError FileTree :=
  match target.parent? with
  | some parent => t.ensureDirectory parent
  | none => .ok t

theorem withParent_ok (h : t.withParent target = .ok u) :
    AddsDirectories t u ∧ (t.WellFormed → u.WellFormed) := by
  unfold withParent at h
  split at h
  · exact ⟨ensureDirectory_adds h, fun hw => ensureDirectory_wellFormed hw h⟩
  · cases h
    exact ⟨.refl t, id⟩

/-- The search for a destination ends at one of the paths that are tried. -/
theorem vacancy_stopped {v : Vacancy} (h : t.vacancy source dest claimed 1001 0 dest = .ok v) :
    ∃ p, Tried dest p ∧ t.Stops source claimed p v := by
  obtain ⟨k, -, -, htried, hstops, -⟩ := vacancy_ok (n := 0) h rfl (by omega) (.inl rfl)
  exact ⟨_, htried, hstops⟩

theorem place_ok (h : t.place source dest strategy verify claimed = (.ok x, t')) :
    Placed t strategy source dest claimed x t' := by
  unfold place at h
  split at h
  next hin =>
    cases h
    exact .inPlace (by simpa using hin)
  · split at h
    · simp at h
    next hv =>
      cases h
      obtain ⟨p, ht, hstops⟩ := vacancy_stopped hv
      cases hstops with
      | holds _ hclaimed hsame =>
        obtain ⟨c, hs, hd⟩ := sameContent_ok hsame
        exact .reused ht hclaimed hs hd
    next hv =>
      obtain ⟨p, ht, hstops⟩ := vacancy_stopped hv
      cases hstops with
      | absent hex =>
        split at h
        · simp at h
        next hu =>
          obtain ⟨hadds, hwell⟩ := withParent_ok hu
          split at h
          · simp at h
          next hcopy =>
            cases h
            obtain ⟨s, q, c, hs, hc, hq, hw, -, rfl⟩ := copy_ok (copyVerified_ok hcopy)
            exact .copied ht hex hadds hwell hs hc hq hw

/-- Placements one after the other, each claiming its place. -/
inductive PlacedAll (strategy : FileStrategy) : FileTree → List FilePath →
    List (FilePath × FilePath) → List Transfer → FileTree → Prop
  | nil (t : FileTree) (claimed : List FilePath) : PlacedAll strategy t claimed [] [] t
  | cons {t u t' : FileTree} {claimed : List FilePath} {source dest : FilePath} {x : Transfer}
      {rest : List (FilePath × FilePath)} {xs : List Transfer}
      (first : Placed t strategy source dest claimed x u)
      (then' : PlacedAll strategy u (x.dest :: claimed) rest xs t') :
      PlacedAll strategy t claimed ((source, dest) :: rest) (x :: xs) t'

theorem placeAll_ok {finished xs : List Transfer} {pairs : List (FilePath × FilePath)}
    (h : t.placeAll strategy verify finished claimed pairs = (.ok xs, t')) :
    ∃ ys, xs = finished ++ ys ∧ PlacedAll strategy t claimed pairs ys t' := by
  induction pairs generalizing t finished claimed with
  | nil =>
    cases h
    exact ⟨[], by simp, .nil _ _⟩
  | cons pair rest ih =>
    obtain ⟨source, dest⟩ := pair
    unfold placeAll at h
    split at h
    next x u hx =>
      obtain ⟨ys, rfl, hys⟩ := ih h
      exact ⟨x :: ys, by simp, .cons (place_ok hx) hys⟩
    · simp at h

/-- Referenced files stay where they are. -/
theorem placeAll_reference {finished xs : List Transfer} {pairs : List (FilePath × FilePath)}
    (h : t.placeAll .reference verify finished claimed pairs = (.ok xs, t')) :
    xs = finished ++ pairs.map fun pair => ⟨pair.1, pair.1, .inPlace⟩ := by
  induction pairs generalizing finished claimed with
  | nil =>
    cases h
    simp
  | cons pair rest ih =>
    obtain ⟨source, dest⟩ := pair
    simp only [placeAll, place, decide_true, Bool.true_or, if_true] at h
    simp [ih h]

/-- A run that fails has placed the files before the one that is told. -/
theorem placeAll_error {finished : List Transfer} {pairs : List (FilePath × FilePath)}
    {e : FilePath × ImportFailure}
    (h : t.placeAll strategy verify finished claimed pairs = (.error e, t')) :
    ∃ before dest after ys u v claimed', pairs = before ++ (e.1, dest) :: after ∧
      PlacedAll strategy t claimed before ys u ∧
      u.place e.1 dest strategy verify claimed' = (.error e.2, v) ∧
      t' = v.undo (finished ++ ys) := by
  induction pairs generalizing t finished claimed with
  | nil => simp [placeAll] at h
  | cons pair rest ih =>
    obtain ⟨source, dest⟩ := pair
    unfold placeAll at h
    split at h
    next x u hx =>
      obtain ⟨before, dest', after, ys, u', v, claimed', rfl, hys, hplace, rfl⟩ := ih h
      exact ⟨(source, dest) :: before, dest', after, x :: ys, u', v, claimed', rfl,
        .cons (place_ok hx) hys, hplace, by simp⟩
    next f v hf =>
      cases h
      exact ⟨[], dest, rest, [], _, _, _, rfl, .nil _ _, hf, by simp⟩

end FileTree
end MusicImport
