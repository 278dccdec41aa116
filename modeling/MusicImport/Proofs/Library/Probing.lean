import MusicImport.Proofs.Files.Operations
import MusicImport.Proofs.Paths

/-! The search for a free destination. It tries a path and its numbered alternatives in order, goes past those
that are taken, and stops at the first that is not. -/
namespace MusicImport

/-- The paths that are tried for a destination. -/
def Tried (dest p : FilePath) : Prop := p = dest ∨ ∃ n, numbered dest n = .ok p

/-- A file name as it is, or with a number. -/
def probeName (name : String) : Nat → String
  | 0 => name
  | n + 1 => numberedName name (n + 1)

/-- A destination and its alternatives, in the order in which they are tried. -/
def probe (dest : FilePath) : Nat → FilePath
  | 0 => dest
  | n + 1 => dest.withFileName (probeName (dest.fileName?.getD "") (n + 1))

variable {dest source target : FilePath} {n : Nat}

theorem numbered_lt (h : numbered dest n = .ok target) : n < 1000 := by
  unfold numbered at h
  split at h
  · cases h
  · omega

theorem numbered_eq_probe (h : numbered dest (n + 1) = .ok target) : target = probe dest (n + 1) := by
  unfold numbered at h
  split at h
  · cases h
  · cases hname : dest.fileName? with
    | none => simp [hname] at h
    | some name =>
      rw [hname] at h
      rw [probe, hname]
      exact (Except.ok.inj h).symm

theorem numbered_of_fileName {name : String} (hname : dest.fileName? = some name) (hn : n + 1 < 1000) :
    numbered dest (n + 1) = .ok (probe dest (n + 1)) := by
  rw [numbered, if_neg (by omega), hname, probe, hname]
  rfl

/-- What is told when there are no more alternatives. -/
def outOfNames (dest : FilePath) : ImportFailure :=
  .invalidPath ("Could not resolve filename conflict for " ++ dest.text ++ " after 1000 attempts")

theorem numbered_outOfNames (dest : FilePath) : numbered dest 1000 = .error (outOfNames dest) := if_pos (by omega)

theorem byteArray_beq {a b : ByteArray} : (a == b) = true ↔ a = b := by
  rw [ByteArray.ext_iff]
  exact (beq_iff_eq : (a.data == b.data) = true ↔ _)

namespace FileTree

variable {t : FileTree} {claimed : List FilePath} {v : Vacancy} {fuel : Nat} {c : ByteArray}

theorem sameContent_ok (h : t.sameContent source target = .ok true) :
    ∃ c, t.read source = .ok c ∧ t.read target = .ok c := by
  unfold sameContent at h
  cases hs : t.read source with
  | error e => simp [hs, Bind.bind, Except.bind] at h
  | ok c =>
    cases ht : t.read target with
    | error e => simp [hs, ht, Bind.bind, Except.bind] at h
    | ok d =>
      simp only [hs, ht, Bind.bind, Except.bind, Pure.pure, Except.pure, Except.ok.injEq] at h
      exact ⟨c, rfl, by rw [byteArray_beq.mp h]⟩

/-- A path that the search goes past: what is there is claimed, or has another content. -/
def Passed (t : FileTree) (source : FilePath) (claimed : List FilePath) (p : FilePath) : Prop :=
  t.exists? p = true ∧ (isClaimed claimed p = true ∨ t.sameContent source p = .ok false)

/-- How the search stops at a path: nothing is there, or the content of the source, and nobody claims it. -/
inductive Stops (t : FileTree) (source : FilePath) (claimed : List FilePath) (p : FilePath) : Vacancy → Prop
  | absent (absent : t.exists? p = false) : Stops t source claimed p (.absent p)
  | holds (present : t.exists? p = true) (unclaimed : isClaimed claimed p = false)
      (same : t.sameContent source p = .ok true) : Stops t source claimed p (.holds p)

theorem Stops.not_passed (h : t.Stops source claimed target v) : ¬ t.Passed source claimed target := by
  rintro ⟨hpresent, htaken⟩
  cases h with
  | absent habsent => simp [habsent] at hpresent
  | holds _ hunclaimed hsame => simp [hunclaimed, hsame] at htaken

theorem vacancy_of_stops (h : t.Stops source claimed target v) :
    t.vacancy source dest claimed (fuel + 1) n target = .ok v := by
  cases h with
  | absent habsent => simp [vacancy, habsent]
  | holds hpresent hunclaimed hsame => simp [vacancy, hpresent, hunclaimed, hsame]

theorem vacancy_of_passed (h : t.Passed source claimed target) :
    t.vacancy source dest claimed (fuel + 1) n target =
      (numbered dest (n + 1)).bind (t.vacancy source dest claimed fuel (n + 1)) := by
  obtain ⟨hpresent, hclaimed | hdiffers⟩ := h
  · simp [vacancy, hpresent, hclaimed, Bind.bind]
  · cases hclaimed : isClaimed claimed target with
    | true => simp [vacancy, hpresent, hclaimed, Bind.bind]
    | false => simp [vacancy, hpresent, hclaimed, hdiffers, Bind.bind]

/-- At each path the search goes on, stops, or fails since a file cannot be read. -/
theorem vacancy_cases (h : t.vacancy source dest claimed (fuel + 1) n target = .ok v) :
    t.Stops source claimed target v ∨ t.Passed source claimed target := by
  unfold vacancy at h
  split at h
  next habsent =>
    cases h
    exact .inl (.absent (by simpa using habsent))
  next hpresent =>
    have hpresent : t.exists? target = true := by simpa using hpresent
    split at h
    next hclaimed => exact .inr ⟨hpresent, .inl hclaimed⟩
    next hclaimed =>
      split at h
      · cases h
      next hsame =>
        cases h
        exact .inl (.holds hpresent (by simpa using hclaimed) hsame)
      next hdiffers => exact .inr ⟨hpresent, .inr hdiffers⟩

/-- A search that finds something has gone past all paths before it. -/
theorem vacancy_ok (h : t.vacancy source dest claimed fuel n (probe dest n) = .ok v) (hf : fuel + n = 1001)
    (hn : n < 1000) (htried : Tried dest (probe dest n)) :
    ∃ k, n ≤ k ∧ k < 1000 ∧ Tried dest (probe dest k) ∧ t.Stops source claimed (probe dest k) v ∧
      ∀ m, n ≤ m → m < k → t.Passed source claimed (probe dest m) := by
  induction fuel generalizing n with
  | zero => omega
  | succ fuel ih =>
    rcases vacancy_cases h with hstops | hpassed
    · exact ⟨n, Nat.le_refl n, hn, htried, hstops, fun m hnm hmn => by omega⟩
    · rw [vacancy_of_passed hpassed] at h
      cases hnext : numbered dest (n + 1) with
      | error e => simp [hnext, Except.bind] at h
      | ok next =>
        obtain rfl := numbered_eq_probe hnext
        rw [hnext] at h
        obtain ⟨k, hnk, hk, htried, hstops, hbefore⟩ :=
          ih h (by omega) (numbered_lt hnext) (.inr ⟨n + 1, hnext⟩)
        refine ⟨k, by omega, hk, htried, hstops, fun m hnm hmk => ?_⟩
        rcases Nat.eq_or_lt_of_le hnm with rfl | hlt
        · exact hpassed
        · exact hbefore m hlt hmk

/-- Going past the first paths. -/
theorem vacancy_after {name : String} (hname : dest.fileName? = some name) (hn : n < 1000)
    (h : ∀ m < n, t.Passed source claimed (probe dest m)) :
    t.vacancy source dest claimed 1001 0 dest =
      t.vacancy source dest claimed (1001 - n) n (probe dest n) := by
  induction n with
  | zero => rfl
  | succ n ih =>
    have hfuel : 1001 - n = (1001 - (n + 1)) + 1 := by omega
    rw [ih (by omega) fun m hm => h m (by omega), hfuel, vacancy_of_passed (h n (by omega)),
      numbered_of_fileName hname hn]
    rfl

theorem vacancy_stops {name : String} (hname : dest.fileName? = some name) (hn : n < 1000)
    (hbefore : ∀ m < n, t.Passed source claimed (probe dest m))
    (h : t.Stops source claimed (probe dest n) v) : t.vacancy source dest claimed 1001 0 dest = .ok v := by
  have hfuel : 1001 - n = (1000 - n) + 1 := by omega
  rw [vacancy_after hname hn hbefore, hfuel]
  exact vacancy_of_stops h

/-- Where every path is taken, the search fails. -/
theorem vacancy_outOfNames {name : String} (hname : dest.fileName? = some name)
    (h : ∀ m < 1000, t.Passed source claimed (probe dest m)) :
    t.vacancy source dest claimed 1001 0 dest = .error (outOfNames dest) := by
  have hafter := vacancy_after hname (n := 999) (by omega) fun m hm => h m (by omega)
  rw [hafter, show 1001 - 999 = 1 + 1 from rfl, vacancy_of_passed (h 999 (by omega)),
    numbered_outOfNames]
  rfl

end FileTree
end MusicImport
