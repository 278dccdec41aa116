import MusicImport.Proofs.Files.Operations

/-! What a path to a file depends on: every place that its walk comes to. If something is taken away from
one of them, nothing is read by the path any more; what is taken away elsewhere it does not notice. -/
namespace MusicImport
namespace FileTree

variable {t : FileTree} {fuel : Nat} {a p q : Place} {steps : List Step} {path : FilePath}
  {c : ByteArray}

/-- The places that a walk comes to. -/
def passed (t : FileTree) : Nat → Place → List Step → List Place
  | _, a, [] => [a]
  | 0, _, _ :: _ => []
  | fuel + 1, a, .stay :: rest => t.passed fuel a rest
  | fuel + 1, a, .up :: rest => t.passed fuel a.dropLast rest
  | fuel + 1, a, .down name :: rest =>
    (a ++ [name]) ::
      match t.nodeAt? (a ++ [name]) with
      | some (.link target) => t.passed fuel (origin target a) (FileTree.steps target ++ rest)
      | _ => t.passed fuel (a ++ [name]) rest

/-- The places that a path comes to. -/
def passes (t : FileTree) (path : FilePath) : List Place :=
  t.passed walkFuel (origin path t.workingDirectory) (FileTree.steps path)

theorem passed_nil : t.passed fuel a [] = [a] := by cases fuel <;> rfl

/-- A walk that does not come to a place goes on as before without it. -/
theorem passed_erase_of_not_mem (h : q ∉ t.passed fuel a steps) :
    (t.erase q).walk true fuel a steps = t.walk true fuel a steps ∧
      (t.erase q).passed fuel a steps = t.passed fuel a steps := by
  induction fuel generalizing a steps with
  | zero => cases steps <;> exact ⟨rfl, rfl⟩
  | succ fuel ih =>
    match steps with
    | [] => exact ⟨rfl, rfl⟩
    | .stay :: rest => exact ih h
    | .up :: rest => exact ih h
    | .down name :: rest =>
      rw [passed, List.mem_cons, not_or] at h
      obtain ⟨hne, hrest⟩ := h
      simp only [walk, passed, nodeAt?_erase_of_ne t (Ne.symm hne)]
      cases hn : t.nodeAt? (a ++ [name]) with
      | none =>
        rw [hn] at hrest
        exact ⟨rfl, congrArg _ (ih hrest).2⟩
      | some n =>
        rw [hn] at hrest
        cases n with
        | file d => exact ⟨rfl, congrArg _ (ih hrest).2⟩
        | directory => exact ⟨(ih hrest).1, congrArg _ (ih hrest).2⟩
        | link target =>
          refine ⟨?_, congrArg _ (ih hrest).2⟩
          simpa using (ih hrest).1

/-- A walk that comes to a place does not get any further without it. -/
theorem walk_erase_of_mem (hq : q ≠ []) (h : q ∈ t.passed fuel a steps)
    (hw : (t.erase q).walk true fuel a steps = .ok p) : p = q := by
  induction fuel generalizing a steps with
  | zero =>
    cases steps with
    | nil =>
      cases hw
      exact (List.mem_singleton.mp h).symm
    | cons step rest => cases h
  | succ fuel ih =>
    match steps with
    | [] =>
      cases hw
      exact (List.mem_singleton.mp h).symm
    | .stay :: rest => exact ih h hw
    | .up :: rest => exact ih h hw
    | .down name :: rest =>
      by_cases hne : a ++ [name] = q
      · -- Nothing is there any more, so that the walk ends here.
        simp only [walk, hne, nodeAt?_erase t hq] at hw
        split at hw
        · exact (Except.ok.inj hw).symm
        · cases hw
      rw [passed, List.mem_cons] at h
      have hrest := h.resolve_left (Ne.symm hne)
      simp only [walk, nodeAt?_erase_of_ne t hne] at hw
      cases hn : t.nodeAt? (a ++ [name]) with
      | none =>
        simp only [hn] at hw hrest
        split at hw
        next hlast =>
          rw [List.isEmpty_iff.mp hlast, passed_nil] at hrest
          exact absurd (List.mem_singleton.mp hrest).symm hne
        · cases hw
      | some n =>
        simp only [hn] at hw hrest
        cases n with
        | file d =>
          simp only at hw hrest
          split at hw
          next hlast =>
            rw [List.isEmpty_iff.mp hlast, passed_nil] at hrest
            exact absurd (List.mem_singleton.mp hrest).symm hne
          · cases hw
        | directory => exact ih hrest hw
        | link target => exact ih hrest (by simpa using hw)

/-- The end of a walk is a place that it comes to. -/
theorem mem_passed_of_walk (h : t.walk true fuel a steps = .ok p) : p ∈ t.passed fuel a steps := by
  induction fuel generalizing a steps with
  | zero =>
    cases steps with
    | nil =>
      cases h
      exact .head _
    | cons step rest => cases h
  | succ fuel ih =>
    match steps with
    | [] =>
      cases h
      exact .head _
    | .stay :: rest => exact ih h
    | .up :: rest => exact ih h
    | .down name :: rest =>
      rw [passed]
      obtain ⟨hn, h⟩ | ⟨target, hn, -, h⟩ | ⟨rfl, rfl, -⟩ := walk_down h
      · rw [hn]
        exact .tail _ (ih h)
      · rw [hn]
        exact .tail _ (ih h)
      · exact .head _

/-- What is read by a path without a place is what was read before, if the path does not come there. -/
theorem read_erase (hq : q ≠ []) :
    (t.erase q).read path = .ok c ↔ t.read path = .ok c ∧ q ∉ t.passes path := by
  rw [read_ok, read_ok]
  unfold locate
  by_cases htext : path.text = ""
  · simp [htext]
  simp only [if_neg htext]
  constructor
  · rintro ⟨p, hw, hc⟩
    have hpq : p ≠ q := by
      rintro rfl
      simp [contentAt?, hq] at hc
    have hq' : q ∉ t.passes path := fun hmem => hpq (walk_erase_of_mem hq hmem hw)
    rw [contentAt?_erase_of_ne t hpq] at hc
    exact ⟨⟨p, (passed_erase_of_not_mem hq').1 ▸ hw, hc⟩, hq'⟩
  · rintro ⟨⟨p, hw, hc⟩, hq'⟩
    have hpq : p ≠ q := by
      rintro rfl
      exact hq' (mem_passed_of_walk hw)
    exact ⟨p, (passed_erase_of_not_mem hq').1.trans hw, by rwa [contentAt?_erase_of_ne t hpq]⟩

theorem passes_erase (h : q ∉ t.passes path) : (t.erase q).passes path = t.passes path :=
  (passed_erase_of_not_mem h).2

end FileTree
end MusicImport
