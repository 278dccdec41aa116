import Mathlib.Order.Lattice

/-! Sorting by a key in a linear order. What has equal keys keeps the order in which it came. -/
namespace MusicImport.Sorting

variable {α β : Type} [LinearOrder β] (key : α → β)

theorem le_trans_key (a b c : α) (hab : decide (key a ≤ key b) = true) (hbc : decide (key b ≤ key c) = true) :
    decide (key a ≤ key c) = true :=
  decide_eq_true (le_trans (of_decide_eq_true hab) (of_decide_eq_true hbc))

theorem le_total_key (a b : α) : (decide (key a ≤ key b) || decide (key b ≤ key a)) = true := by
  simpa using le_total (key a) (key b)

theorem pairwise_mergeSort (l : List α) :
    (l.mergeSort fun a b => decide (key a ≤ key b)).Pairwise fun a b => key a ≤ key b :=
  (List.pairwise_mergeSort (le_trans_key key) (le_total_key key) l).imp of_decide_eq_true

/-- What is in order as it came stays in this order. -/
theorem filter_mergeSort_of_pairwise {l : List α} {p : α → Bool}
    (h : (l.filter p).Pairwise fun a b => key a ≤ key b) :
    (l.mergeSort fun a b => decide (key a ≤ key b)).filter p = l.filter p := by
  have hordered : (l.filter p).Pairwise fun a b => decide (key a ≤ key b) = true := h.imp decide_eq_true
  have hsublist := (List.sublist_mergeSort (le_trans_key key) (le_total_key key) hordered
    List.filter_sublist).filter p
  simp only [List.filter_filter, Bool.and_self] at hsublist
  exact (hsublist.eq_of_length ((List.mergeSort_perm l _).filter _).length_eq.symm).symm

/-- So does what has one key. -/
theorem filter_mergeSort (l : List α) (k : β) :
    ((l.mergeSort fun a b => decide (key a ≤ key b)).filter fun a => key a = k) = l.filter fun a => key a = k := by
  apply filter_mergeSort_of_pairwise
  refine List.pairwise_of_forall_mem_list fun a ha b hb => ?_
  have hkey {c : α} (hc : c ∈ l.filter fun a => key a = k) : key c = k :=
    of_decide_eq_true (List.mem_filter.mp hc).2
  rw [hkey ha, hkey hb]

theorem then_ne_gt {o o' : Ordering} : o.then o' ≠ .gt ↔ o = .lt ∨ o = .eq ∧ o' ≠ .gt := by
  cases o <;> simp

end MusicImport.Sorting
