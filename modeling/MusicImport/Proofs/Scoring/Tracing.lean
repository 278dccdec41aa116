import Mathlib.Data.List.Range
import MusicImport.Scoring.Match

/-! An alignment is read off the table from the last cell back. Whatever the costs are and however they
compare, each cell's move leads to a cell of the table, so the trace ends at the first one, and the alignment
that it makes has every track of either side exactly once. -/
namespace MusicImport

open MusicImport.Alignment (Move)

namespace Alignment

/-- The local tracks that a move uses up. -/
def Move.locals : Move → Nat
  | .pair => 1
  | .skipCandidate => 0
  | .skipLocal => 1

/-- The candidate tracks that a move uses up. -/
def Move.candidates : Move → Nat
  | .pair => 1
  | .skipCandidate => 1
  | .skipLocal => 0

def localsUsed : List Move → Nat
  | [] => 0
  | mv :: ms => localsUsed ms + mv.locals

def candidatesUsed : List Move → Nat
  | [] => 0
  | mv :: ms => candidatesUsed ms + mv.candidates

@[simp] theorem localsUsed_nil : localsUsed [] = 0 := rfl

@[simp] theorem candidatesUsed_nil : candidatesUsed [] = 0 := rfl

@[simp] theorem localsUsed_cons (mv : Move) (ms : List Move) :
    localsUsed (mv :: ms) = localsUsed ms + mv.locals := rfl

@[simp] theorem candidatesUsed_cons (mv : Move) (ms : List Move) :
    candidatesUsed (mv :: ms) = candidatesUsed ms + mv.candidates := rfl

@[simp] theorem localsUsed_append (ms ms' : List Move) :
    localsUsed (ms ++ ms') = localsUsed ms + localsUsed ms' := by
  induction ms with
  | nil => simp
  | cons mv ms ih => simp [ih, Nat.add_right_comm]

@[simp] theorem candidatesUsed_append (ms ms' : List Move) :
    candidatesUsed (ms ++ ms') = candidatesUsed ms + candidatesUsed ms' := by
  induction ms with
  | nil => simp
  | cons mv ms ih => simp [ih, Nat.add_right_comm]

@[simp] theorem localsUsed_reverse (ms : List Move) : localsUsed ms.reverse = localsUsed ms := by
  induction ms with
  | nil => rfl
  | cons mv ms ih => simp [ih]

@[simp] theorem candidatesUsed_reverse (ms : List Move) :
    candidatesUsed ms.reverse = candidatesUsed ms := by
  induction ms with
  | nil => rfl
  | cons mv ms ih => simp [ih]

/-- Every move uses up a track. -/
theorem length_le_used (ms : List Move) : ms.length ≤ localsUsed ms + candidatesUsed ms := by
  induction ms with
  | nil => exact Nat.le_refl 0
  | cons mv ms ih =>
    have hmv : 1 ≤ mv.locals + mv.candidates := by cases mv <;> decide
    rw [List.length_cons, localsUsed_cons, candidatesUsed_cons]
    omega

/-- What a move costs from the cell after `i` local and `j` candidate tracks. -/
def Move.cost {α : Type} [Scalar α] (gaps : GapCosts α) (cost : Nat → Nat → α) (i j : Nat) : Move → α
  | .pair => AlignmentCell.pairCost (cost i j)
  | .skipCandidate => gaps.missing
  | .skipLocal => gaps.unmatched

/-- What moves cost that are told the last one first, each added to those before it. -/
def pathCost {α : Type} [Scalar α] (gaps : GapCosts α) (cost : Nat → Nat → α) : List Move → α
  | [] => Scalar.zero
  | mv :: ms =>
    pathCost gaps cost ms + mv.cost gaps cost (localsUsed ms) (candidatesUsed ms)

/-- The pairs ascend on both sides, and every track of either side is in exactly one pair or among those
without a partner, which are in ascending order. -/
structure Complete (nLocal nCandidate : Nat) (a : Alignment) : Prop where
  ascending : a.pairs.Pairwise fun p q => p.1 < q.1 ∧ p.2 < q.2
  locals : (a.pairs.map (·.1) ++ a.unmatchedLocal).Perm (List.range nLocal)
  candidates : (a.pairs.map (·.2) ++ a.missingCandidate).Perm (List.range nCandidate)
  unmatched_ascending : a.unmatchedLocal.Pairwise (· < ·)
  missing_ascending : a.missingCandidate.Pairwise (· < ·)

variable {i j : Nat} {ms : List Move}

theorem ofMoves_locals (i j : Nat) (ms : List Move) :
    ((ofMoves i j ms).pairs.map (·.1) ++ (ofMoves i j ms).unmatchedLocal).Perm
      (List.range' i (localsUsed ms)) := by
  induction ms generalizing i j with
  | nil => exact .refl _
  | cons mv ms ih =>
    rw [localsUsed_cons]
    cases mv with
    | pair => exact (ih (i + 1) (j + 1)).cons i
    | skipCandidate => exact ih i (j + 1)
    | skipLocal => exact List.perm_middle.trans ((ih (i + 1) j).cons i)

theorem ofMoves_candidates (i j : Nat) (ms : List Move) :
    ((ofMoves i j ms).pairs.map (·.2) ++ (ofMoves i j ms).missingCandidate).Perm
      (List.range' j (candidatesUsed ms)) := by
  induction ms generalizing i j with
  | nil => exact .refl _
  | cons mv ms ih =>
    rw [candidatesUsed_cons]
    cases mv with
    | pair => exact (ih (i + 1) (j + 1)).cons j
    | skipCandidate => exact List.perm_middle.trans ((ih i (j + 1)).cons j)
    | skipLocal => exact ih (i + 1) j

theorem le_of_mem_pairs {p : Nat × Nat} (h : p ∈ (ofMoves i j ms).pairs) : i ≤ p.1 ∧ j ≤ p.2 := by
  have hlocal := (ofMoves_locals i j ms).mem_iff.mp (List.mem_append_left _ (List.mem_map_of_mem h))
  have hcandidate :=
    (ofMoves_candidates i j ms).mem_iff.mp (List.mem_append_left _ (List.mem_map_of_mem h))
  exact ⟨(List.mem_range'_1.mp hlocal).1, (List.mem_range'_1.mp hcandidate).1⟩

theorem le_of_mem_unmatched {k : Nat} (h : k ∈ (ofMoves i j ms).unmatchedLocal) : i ≤ k :=
  (List.mem_range'_1.mp ((ofMoves_locals i j ms).mem_iff.mp (List.mem_append_right _ h))).1

theorem le_of_mem_missing {k : Nat} (h : k ∈ (ofMoves i j ms).missingCandidate) : j ≤ k :=
  (List.mem_range'_1.mp ((ofMoves_candidates i j ms).mem_iff.mp (List.mem_append_right _ h))).1

theorem ofMoves_ascending (i j : Nat) (ms : List Move) :
    (ofMoves i j ms).pairs.Pairwise (fun p q => p.1 < q.1 ∧ p.2 < q.2) ∧
      (ofMoves i j ms).unmatchedLocal.Pairwise (· < ·) ∧
      (ofMoves i j ms).missingCandidate.Pairwise (· < ·) := by
  induction ms generalizing i j with
  | nil => exact ⟨.nil, .nil, .nil⟩
  | cons mv ms ih =>
    cases mv with
    | pair =>
      obtain ⟨hpairs, hlocal, hcandidate⟩ := ih (i + 1) (j + 1)
      exact ⟨.cons (fun _ hp => le_of_mem_pairs hp) hpairs, hlocal, hcandidate⟩
    | skipCandidate =>
      obtain ⟨hpairs, hlocal, hcandidate⟩ := ih i (j + 1)
      exact ⟨hpairs, hlocal, .cons (fun _ hk => le_of_mem_missing hk) hcandidate⟩
    | skipLocal =>
      obtain ⟨hpairs, hlocal, hcandidate⟩ := ih (i + 1) j
      exact ⟨hpairs, .cons (fun _ hk => le_of_mem_unmatched hk) hlocal, hcandidate⟩

theorem ofMoves_complete (ms : List Move) :
    (ofMoves 0 0 ms).Complete (localsUsed ms) (candidatesUsed ms) := by
  obtain ⟨hpairs, hlocal, hcandidate⟩ := ofMoves_ascending 0 0 ms
  refine ⟨hpairs, ?_, ?_, hlocal, hcandidate⟩
  · rw [List.range_eq_range']
    exact ofMoves_locals 0 0 ms
  · rw [List.range_eq_range']
    exact ofMoves_candidates 0 0 ms

namespace Complete

variable {nLocal nCandidate : Nat} {a : Alignment}

theorem isOrderPreserving (h : a.Complete nLocal nCandidate) : a.isOrderPreserving = true := by
  unfold Alignment.isOrderPreserving
  rw [List.all_eq_true]
  rintro ⟨p, q⟩ hpq
  obtain ⟨k, hk⟩ := List.getElem?_of_mem hpq
  obtain ⟨hp, hq⟩ := List.getElem?_zip_eq_some.mp hk
  rw [List.getElem?_tail] at hq
  have hlt := List.pairwise_iff_getElem.mp h.ascending k (k + 1) (List.getElem?_eq_some_iff.mp hp).1
    (List.getElem?_eq_some_iff.mp hq).1 (Nat.lt_succ_self k)
  rw [(List.getElem?_eq_some_iff.mp hp).2, (List.getElem?_eq_some_iff.mp hq).2] at hlt
  simpa using hlt

/-- Each pair and each track without a partner takes one of the local tracks. -/
theorem length_locals (h : a.Complete nLocal nCandidate) :
    a.pairs.length + a.unmatchedLocal.length = nLocal := by
  simpa using h.locals.length_eq

end Complete
end Alignment

section
variable {α : Type} [Scalar α] {gaps : GapCosts α} {cost : Nat → Nat → α}
  {i j nLocal nCandidate : Nat} {mv : Move}

namespace AlignmentCell

/-- The cell after the first `i` local and the first `j` candidate tracks, told by its neighbours. -/
def after (gaps : GapCosts α) (cost : Nat → Nat → α) : Nat → Nat → AlignmentCell α
  | 0, 0 => start
  | 0, j + 1 => (after gaps cost 0 j).skipCandidate gaps
  | i + 1, 0 => (after gaps cost i 0).skipLocal gaps
  | i + 1, j + 1 =>
    best gaps (cost i j) (after gaps cost i j) (after gaps cost (i + 1) j) (after gaps cost i (j + 1))
termination_by i j => i + j

theorem orCheaper_cases (a b : AlignmentCell α) : a.orCheaper b = a ∨ a.orCheaper b = b := by
  unfold orCheaper
  split
  · exact .inr rfl
  · exact .inl rfl

theorem best_cases (gaps : GapCosts α) (c : α) (diagonal left above : AlignmentCell α) :
    best gaps c diagonal left above = diagonal.pair c ∨
      best gaps c diagonal left above = left.skipCandidate gaps ∨
      best gaps c diagonal left above = above.skipLocal gaps := by
  unfold best
  obtain h | h := orCheaper_cases ((diagonal.pair c).orCheaper (left.skipCandidate gaps))
    (above.skipLocal gaps)
  · rw [h, ← or_assoc]
    exact .inl (orCheaper_cases _ _)
  · exact .inr (.inr h)

/-- Every cell but the first is reached by its move from another one. -/
theorem after_move (gaps : GapCosts α) (cost : Nat → Nat → α) (h : ¬(i = 0 ∧ j = 0)) :
    ∃ i' j' mv, i = i' + mv.locals ∧ j = j' + mv.candidates ∧ after gaps cost i j =
      ⟨(after gaps cost i' j').cost + mv.cost gaps cost i' j', mv⟩ := by
  match i, j with
  | 0, 0 => exact absurd ⟨rfl, rfl⟩ h
  | 0, j + 1 => exact ⟨0, j, .skipCandidate, rfl, rfl, by rw [after]; rfl⟩
  | i + 1, 0 => exact ⟨i, 0, .skipLocal, rfl, rfl, by rw [after]; rfl⟩
  | i + 1, j + 1 =>
    rw [after]
    obtain hpair | hcandidate | hlocal := best_cases gaps (cost i j) (after gaps cost i j)
      (after gaps cost (i + 1) j) (after gaps cost i (j + 1))
    · exact ⟨i, j, .pair, rfl, rfl, hpair⟩
    · exact ⟨i + 1, j, .skipCandidate, rfl, rfl, hcandidate⟩
    · exact ⟨i, j + 1, .skipLocal, rfl, rfl, hlocal⟩

theorem borderRow_eq (gaps : GapCosts α) (cost : Nat → Nat → α) (n j : Nat) :
    borderRow gaps n (after gaps cost 0 j) = (List.range' (j + 1) n).map (after gaps cost 0) := by
  induction n generalizing j with
  | zero => rfl
  | succ n ih =>
    have hcell : after gaps cost 0 (j + 1) = (after gaps cost 0 j).skipCandidate gaps := by rw [after]
    rw [List.range'_succ, List.map_cons, borderRow, ← hcell, ih (j + 1)]

theorem nextCells_eq (gaps : GapCosts α) (cost : Nat → Nat → α) (i n j : Nat) :
    nextCells gaps (cost i) j (after gaps cost i j) (after gaps cost (i + 1) j)
        ((List.range' (j + 1) n).map (after gaps cost i)) =
      (List.range' (j + 1) n).map (after gaps cost (i + 1)) := by
  induction n generalizing j with
  | zero => rfl
  | succ n ih =>
    have hcell : after gaps cost (i + 1) (j + 1) = best gaps (cost i j) (after gaps cost i j)
        (after gaps cost (i + 1) j) (after gaps cost i (j + 1)) := by rw [after]
    rw [List.range'_succ, List.map_cons, List.map_cons, nextCells, ← hcell, ih (j + 1)]

end AlignmentCell

namespace AlignmentRow

/-- The row after the first `i` local tracks. -/
def after (gaps : GapCosts α) (cost : Nat → Nat → α) (nCandidate i : Nat) : AlignmentRow α :=
  ⟨.after gaps cost i 0, (List.range' 1 nCandidate).map (.after gaps cost i)⟩

theorem after_cell? (hj : j ≤ nCandidate) :
    (after gaps cost nCandidate i).cell? j = some (.after gaps cost i j) := by
  cases j with
  | zero => rfl
  | succ j =>
    have hlt : j < nCandidate := hj
    simp [cell?, after, hlt, Nat.add_comm]

theorem first_eq (gaps : GapCosts α) (cost : Nat → Nat → α) (nCandidate : Nat) :
    first gaps nCandidate = after gaps cost nCandidate 0 := by
  have hstart : (.start : AlignmentCell α) = .after gaps cost 0 0 := by rw [AlignmentCell.after]
  unfold first after
  rw [hstart, AlignmentCell.borderRow_eq]

theorem next_eq (gaps : GapCosts α) (cost : Nat → Nat → α) (nCandidate i : Nat) :
    (after gaps cost nCandidate i).next gaps (cost i) = after gaps cost nCandidate (i + 1) := by
  have hborder : (AlignmentCell.after gaps cost i 0).skipLocal gaps = .after gaps cost (i + 1) 0 := by
    rw [AlignmentCell.after.eq_3]
  unfold next after
  simp only [hborder, AlignmentCell.nextCells_eq gaps cost i nCandidate 0]

theorem down_getElem? (gaps : GapCosts α) (cost : Nat → Nat → α) (nCandidate : Nat) {k n : Nat} (i : Nat)
    (hk : k ≤ n) : (down gaps cost n i (after gaps cost nCandidate i))[k]? =
      some (after gaps cost nCandidate (i + k)) := by
  induction n generalizing i k with
  | zero =>
    obtain rfl := Nat.le_zero.mp hk
    rfl
  | succ n ih =>
    cases k with
    | zero => rfl
    | succ k =>
      rw [down, List.getElem?_cons_succ, next_eq, ih (i + 1) (Nat.le_of_succ_le_succ hk)]
      rw [Nat.add_right_comm, Nat.add_assoc]

end AlignmentRow

namespace AlignmentTable

open MusicImport.Alignment

theorem fill_cell? (hi : i ≤ nLocal) (hj : j ≤ nCandidate) :
    (fill nLocal nCandidate gaps cost).cell? i j = some (.after gaps cost i j) := by
  unfold cell? fill
  rw [AlignmentRow.first_eq gaps cost, AlignmentRow.down_getElem? gaps cost nCandidate 0 hi, Nat.zero_add]
  exact AlignmentRow.after_cell? hj

variable {t : AlignmentTable α}

omit [Scalar α] in
/-- A trace goes on from the cell that a move comes from. -/
theorem traceBack_move (h : t.move? (i + mv.locals) (j + mv.candidates) = some mv) :
    t.traceBack (i + mv.locals) (j + mv.candidates) = (t.traceBack i j).map (mv :: ·) := by
  rw [traceBack.eq_def]
  cases mv with
  | pair =>
    rw [if_neg (by simp [Move.locals])]
    simp only [h]
    rfl
  | skipCandidate =>
    rw [if_neg (by simp [Move.candidates])]
    simp only [h]
    rfl
  | skipLocal =>
    rw [if_neg (by simp [Move.locals])]
    simp only [h]
    rfl

/-- A trace through the table comes to the first cell, and costs what its last cell says. -/
theorem traceBack_fill (gaps : GapCosts α) (cost : Nat → Nat → α) (hi : i ≤ nLocal) (hj : j ≤ nCandidate) :
    ∃ ms, (fill nLocal nCandidate gaps cost).traceBack i j = some ms ∧ localsUsed ms = i ∧
      candidatesUsed ms = j ∧ pathCost gaps cost ms = (AlignmentCell.after gaps cost i j).cost := by
  induction hn : i + j using Nat.strong_induction_on generalizing i j with
  | _ n ih =>
    by_cases hstart : i = 0 ∧ j = 0
    · obtain ⟨rfl, rfl⟩ := hstart
      refine ⟨[], by simp [traceBack.eq_def], rfl, rfl, ?_⟩
      rw [AlignmentCell.after]
      rfl
    · obtain ⟨i', j', mv, rfl, rfl, hcell⟩ := AlignmentCell.after_move gaps cost hstart
      have hless : i' + j' < n := by cases mv <;> simp [Move.locals, Move.candidates] at hn ⊢ <;> omega
      obtain ⟨ms, htrace, hlocals, hcandidates, hcost⟩ := ih _ hless (by omega) (by omega) rfl
      refine ⟨mv :: ms, ?_, by rw [localsUsed_cons, hlocals],
        by rw [candidatesUsed_cons, hcandidates], ?_⟩
      · rw [traceBack_move, htrace]
        · rfl
        · rw [move?, fill_cell? hi hj, hcell]
          rfl
      · rw [pathCost, hcost, hlocals, hcandidates, hcell]

end AlignmentTable

theorem align_cost (nLocal nCandidate : Nat) (gaps : GapCosts α) (cost : Nat → Nat → α) :
    (align nLocal nCandidate gaps cost).cost =
      (AlignmentCell.after gaps cost nLocal nCandidate).cost := by
  simp only [align, AlignmentTable.fill_cell? (Nat.le_refl _) (Nat.le_refl _), Option.getD_some]

theorem align_of_trace {ms : List Move}
    (h : (AlignmentTable.fill nLocal nCandidate gaps cost).traceBack nLocal nCandidate = some ms) :
    (align nLocal nCandidate gaps cost).alignment = .ofMoves 0 0 ms.reverse := by
  simp only [align, h, Option.getD_some]

theorem complete_of_trace {ms : List Move} (hlocals : Alignment.localsUsed ms = nLocal)
    (hcandidates : Alignment.candidatesUsed ms = nCandidate) :
    (Alignment.ofMoves 0 0 ms.reverse).Complete nLocal nCandidate := by
  have h := Alignment.ofMoves_complete ms.reverse
  rwa [Alignment.localsUsed_reverse, Alignment.candidatesUsed_reverse, hlocals, hcandidates] at h

theorem align_complete (nLocal nCandidate : Nat) (gaps : GapCosts α) (cost : Nat → Nat → α) :
    (align nLocal nCandidate gaps cost).alignment.Complete nLocal nCandidate := by
  obtain ⟨ms, htrace, hlocals, hcandidates, -⟩ :=
    AlignmentTable.traceBack_fill gaps cost (Nat.le_refl nLocal) (Nat.le_refl nCandidate)
  rw [align_of_trace htrace]
  exact complete_of_trace hlocals hcandidates

/-- An album match is partial if and only if it leaves local tracks over. -/
theorem Match.isPartial_iff {w : DistanceWeights α} {tracks : List Track} {candidate : Candidate}
    {m : Match α} (h : Match.score? w true tracks candidate = some m) :
    m.isPartial = true ↔ m.alignment.unmatchedLocal ≠ [] := by
  cases candidate with
  | track c => simp [Match.score?] at h
  | album c =>
    simp only [Match.score?, if_true, Option.some.injEq] at h
    subst h
    have hcomplete : (albumDistance w tracks c).2.Complete tracks.length c.tracks.length :=
      align_complete _ _ _ _
    have hlength := hcomplete.length_locals
    change decide ((albumDistance w tracks c).2.pairs.length < tracks.length) = true ↔ _
    rw [decide_eq_true_iff, ← List.length_pos_iff]
    dsimp only
    omega

/-- Whatever the costs are, and however they compare: the trace through the table takes at most as many
steps as there are tracks and never leaves the table, the alignment that it makes has ascending pairs and every
track of either side exactly once, and an album match is partial if and only if a local track is left over. -/
theorem align_traced (nLocal nCandidate : Nat) (gaps : GapCosts α) (cost : Nat → Nat → α)
    (w : DistanceWeights α) (tracks : List Track) (candidate : Candidate) :
    (∃ ms, (AlignmentTable.fill nLocal nCandidate gaps cost).traceBack nLocal nCandidate = some ms ∧
        ms.length ≤ nLocal + nCandidate ∧
        (align nLocal nCandidate gaps cost).alignment = .ofMoves 0 0 ms.reverse) ∧
      (align nLocal nCandidate gaps cost).alignment.Complete nLocal nCandidate ∧
      (align nLocal nCandidate gaps cost).alignment.isOrderPreserving = true ∧
      ∀ m, Match.score? w true tracks candidate = some m →
        (m.isPartial = true ↔ m.alignment.unmatchedLocal ≠ []) := by
  obtain ⟨ms, htrace, hlocals, hcandidates, -⟩ :=
    AlignmentTable.traceBack_fill gaps cost (Nat.le_refl nLocal) (Nat.le_refl nCandidate)
  have hlength := Alignment.length_le_used ms
  have hcomplete := align_complete nLocal nCandidate gaps cost
  exact ⟨⟨ms, htrace, by rwa [hlocals, hcandidates] at hlength, align_of_trace htrace⟩, hcomplete,
    hcomplete.isOrderPreserving, fun m => Match.isPartial_iff⟩

/-- A track that is scored against an album without tracks, where no cost is a number. -/
theorem align_traced_unnumbered : ∃ m,
    Match.score? .standard true [{ path := ⟨"in/a.flac"⟩ }]
        (.album { id := "r", artist := "A", album := "X", tracks := [] }) = some m ∧
      m.isPartial = true ∧ m.alignment.unmatchedLocal ≠ [] ∧
      (align 2 1 ⟨0.0 / 0.0, 0.0 / 0.0⟩ fun _ _ => (0.0 / 0.0 : Float)).alignment.Complete 2 1 := by
  obtain ⟨-, hcomplete, -, hpartial⟩ := align_traced 2 1 ⟨0.0 / 0.0, 0.0 / 0.0⟩
    (fun _ _ => (0.0 / 0.0 : Float)) .standard [{ path := ⟨"in/a.flac"⟩ }]
    (.album { id := "r", artist := "A", album := "X", tracks := [] })
  have hfound := hpartial _ rfl
  exact ⟨_, rfl, by decide +kernel, hfound.mp (by decide +kernel), hcomplete⟩

end
end MusicImport
