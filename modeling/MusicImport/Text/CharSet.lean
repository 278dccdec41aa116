/-! Sets of characters as ascending lists of inclusive code point ranges. -/
namespace MusicImport.Text

/-- Inclusive ranges of code points, in ascending order and apart from each other. -/
abbrev CharSet := List (Nat × Nat)

namespace CharSet

/-- Membership of a code point; the scan stops at the first range beyond it. -/
def contains : CharSet → Nat → Bool
  | [], _ => false
  | (lo, hi) :: rest, n => if n < lo then false else n ≤ hi || contains rest n

@[simp] theorem contains_nil (n : Nat) : contains [] n = false := rfl

theorem exists_range_of_contains {s : CharSet} {n : Nat} (h : s.contains n = true) :
    ∃ r ∈ s, r.1 ≤ n ∧ n ≤ r.2 := by
  induction s with
  | nil => simp at h
  | cons r rest ih =>
    obtain ⟨lo, hi⟩ := r
    unfold contains at h
    split at h
    · simp at h
    · rcases Bool.or_eq_true_iff.mp h with h | h
      · exact ⟨(lo, hi), List.mem_cons_self, by omega, by simpa using h⟩
      · obtain ⟨r, hr, hb⟩ := ih h
        exact ⟨r, List.mem_cons_of_mem _ hr, hb⟩

end CharSet
end MusicImport.Text
