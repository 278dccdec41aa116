import Mathlib.Algebra.BigOperators.Group.List.Basic
import Mathlib.Algebra.Order.Ring.Rat
import Mathlib.Order.Bounds.Basic
import Mathlib.Tactic.Linarith
import Mathlib.Tactic.Ring
import MusicImport.Proofs.Scoring.Tracing

/-! The alignment of exact costs is a cheapest one. Every pairing that keeps the order of both sides is a path
through the table, and the costs that the table tells are the least of all paths to their cells. Of the
cheapest paths the trace is the first one, where moves are compared from the last cell back. -/
namespace MusicImport

open MusicImport.Alignment (Move)

namespace Alignment

/-- The order of preference of moves that cost the same. -/
def Move.rank : Move → Nat
  | .pair => 0
  | .skipCandidate => 1
  | .skipLocal => 2

theorem Move.rank_injective {a b : Move} (h : a.rank = b.rank) : a = b := by
  cases a <;> cases b <;> first | rfl | cases h

/-- A path to the cell after some local and candidate tracks, its last move first. -/
structure LeadsTo (nLocal nCandidate : Nat) (ms : List Move) : Prop where
  locals : localsUsed ms = nLocal
  candidates : candidatesUsed ms = nCandidate

/-- At the first difference the one path has the preferred move. -/
def Before (ms ms' : List Move) : Prop := List.Lex (fun a b => a.rank < b.rank) ms ms'

/-- Some local tracks with a candidate track each, in the order of both. -/
structure IsPairing (nLocal nCandidate : Nat) (pairs : List (Nat × Nat)) : Prop where
  ascending : pairs.Pairwise fun p q => p.1 < q.1 ∧ p.2 < q.2
  below : ∀ p ∈ pairs, p.1 < nLocal ∧ p.2 < nCandidate

/-- What pairs cost. A negative cost counts as none. -/
def pairsCost (cost : Nat → Nat → Rat) (pairs : List (Nat × Nat)) : Rat :=
  (pairs.map fun p => max (cost p.1 p.2) 0).sum

/-- What a pairing costs: its pairs, and the tracks of either side that are in none of them. -/
def pairingCost (gaps : GapCosts Rat) (cost : Nat → Nat → Rat) (nLocal nCandidate : Nat)
    (pairs : List (Nat × Nat)) : Rat :=
  pairsCost cost pairs +
    gaps.missing * ((List.range nCandidate).countP (· ∉ pairs.map (·.2)) : Nat) +
    gaps.unmatched * ((List.range nLocal).countP (· ∉ pairs.map (·.1)) : Nat)

/-- What an alignment costs by its own lists. -/
def totalCost (gaps : GapCosts Rat) (cost : Nat → Nat → Rat) (a : Alignment) : Rat :=
  pairsCost cost a.pairs + gaps.missing * (a.missingCandidate.length : Nat) +
    gaps.unmatched * (a.unmatchedLocal.length : Nat)

namespace Complete

variable {nLocal nCandidate : Nat} {a : Alignment}

theorem isPairing (h : a.Complete nLocal nCandidate) : IsPairing nLocal nCandidate a.pairs := by
  refine ⟨h.ascending, fun p hp => ⟨?_, ?_⟩⟩
  · exact List.mem_range.mp (h.locals.mem_iff.mp (List.mem_append_left _ (List.mem_map_of_mem hp)))
  · exact List.mem_range.mp (h.candidates.mem_iff.mp (List.mem_append_left _ (List.mem_map_of_mem hp)))

/-- Of numbers that are in exactly one of two lists, those that are not in the first one are the second. -/
theorem countP_not_mem {n : Nat} {paired alone : List Nat} (h : (paired ++ alone).Perm (List.range n)) :
    (List.range n).countP (· ∉ paired) = alone.length := by
  obtain ⟨-, -, hdisjoint⟩ := List.nodup_append.mp (h.nodup_iff.mpr List.nodup_range)
  have hpaired : paired.countP (· ∉ paired) = 0 := by
    rw [List.countP_eq_zero]
    exact fun k hk => by simpa using hk
  have halone : alone.countP (· ∉ paired) = alone.length := by
    rw [List.countP_eq_length]
    exact fun k hk => decide_eq_true fun hmem => hdisjoint k hmem k hk rfl
  rw [← h.countP_eq, List.countP_append, hpaired, halone, Nat.zero_add]

theorem pairingCost_eq (h : a.Complete nLocal nCandidate) (gaps : GapCosts Rat) (cost : Nat → Nat → Rat) :
    pairingCost gaps cost nLocal nCandidate a.pairs = a.totalCost gaps cost := by
  unfold pairingCost totalCost
  rw [countP_not_mem h.locals, countP_not_mem h.candidates]

end Complete

/-- Tracks can be skipped before the first pair. -/
theorem exists_skips (i j k l : Nat) (ms : List Move) : ∃ ms', localsUsed ms' = localsUsed ms + k ∧
    candidatesUsed ms' = candidatesUsed ms + l ∧
    (ofMoves i j ms').pairs = (ofMoves (i + k) (j + l) ms).pairs := by
  induction k generalizing i with
  | zero =>
    induction l generalizing j with
    | zero => exact ⟨ms, rfl, rfl, rfl⟩
    | succ l ih =>
      obtain ⟨ms', hlocals, hcandidates, hpairs⟩ := ih (j + 1)
      refine ⟨.skipCandidate :: ms', by rw [localsUsed_cons, hlocals]; rfl, ?_, ?_⟩
      · rw [candidatesUsed_cons, hcandidates, Nat.add_assoc]
        rfl
      · rw [Nat.add_right_comm j 1 l] at hpairs
        exact hpairs
  | succ k ih =>
    obtain ⟨ms', hlocals, hcandidates, hpairs⟩ := ih (i + 1)
    refine ⟨.skipLocal :: ms', ?_, by rw [candidatesUsed_cons, hcandidates]; rfl, ?_⟩
    · rw [localsUsed_cons, hlocals, Nat.add_assoc]
      rfl
    · rw [Nat.add_right_comm i 1 k] at hpairs
      exact hpairs

/-- Every pairing is made by moves: up to each pair the tracks of both sides are skipped. -/
theorem exists_ofMoves {i j nLocal nCandidate : Nat} {pairs : List (Nat × Nat)} (hi : i ≤ nLocal)
    (hj : j ≤ nCandidate) (hpairs : IsPairing nLocal nCandidate pairs)
    (hfrom : ∀ p ∈ pairs, i ≤ p.1 ∧ j ≤ p.2) :
    ∃ ms, i + localsUsed ms = nLocal ∧ j + candidatesUsed ms = nCandidate ∧
      (ofMoves i j ms).pairs = pairs := by
  induction pairs generalizing i j with
  | nil =>
    obtain ⟨ms, hlocals, hcandidates, hnone⟩ := exists_skips i j (nLocal - i) (nCandidate - j) []
    simp only [localsUsed_nil, candidatesUsed_nil, Nat.zero_add] at hlocals hcandidates
    exact ⟨ms, by omega, by omega, hnone⟩
  | cons p pairs ih =>
    obtain ⟨hfirst, hascending⟩ := List.pairwise_cons.mp hpairs.ascending
    obtain ⟨hp, hp'⟩ := hpairs.below p (.head _)
    obtain ⟨hip, hjp⟩ := hfrom p (.head _)
    obtain ⟨rest, hlocals, hcandidates, hrest⟩ := ih hp hp'
      ⟨hascending, fun q hq => hpairs.below q (.tail _ hq)⟩ hfirst
    obtain ⟨ms, hlocals', hcandidates', hms⟩ :=
      exists_skips i j (p.1 - i) (p.2 - j) (.pair :: rest)
    rw [localsUsed_cons] at hlocals'
    rw [candidatesUsed_cons] at hcandidates'
    refine ⟨ms, ?_, ?_, ?_⟩
    · simp only [Move.locals] at hlocals'
      omega
    · simp only [Move.candidates] at hcandidates'
      omega
    · rw [hms, Nat.add_sub_cancel' hip, Nat.add_sub_cancel' hjp, ofMoves, hrest]

/-- Every pairing is that of a path to the last cell. -/
theorem IsPairing.exists_path {nLocal nCandidate : Nat} {pairs : List (Nat × Nat)}
    (h : IsPairing nLocal nCandidate pairs) :
    ∃ ms, LeadsTo nLocal nCandidate ms ∧ (ofMoves 0 0 ms.reverse).pairs = pairs := by
  obtain ⟨ms, hlocals, hcandidates, hms⟩ := exists_ofMoves (Nat.zero_le _) (Nat.zero_le _) h
    fun p _ => ⟨Nat.zero_le _, Nat.zero_le _⟩
  refine ⟨ms.reverse, ⟨?_, ?_⟩, by rw [List.reverse_reverse, hms]⟩
  · rw [localsUsed_reverse, ← hlocals, Nat.zero_add]
  · rw [candidatesUsed_reverse, ← hcandidates, Nat.zero_add]

variable {gaps : GapCosts Rat} {cost : Nat → Nat → Rat}

theorem pairCost_eq (c : Rat) : AlignmentCell.pairCost c = max c 0 := by
  have hzero : (Scalar.zero : Rat) = 0 := rfl
  simp only [AlignmentCell.pairCost, Scalar.isFinite, Scalar.isNaN, Scalar.lt, hzero, Bool.true_and,
    Bool.false_or, decide_eq_true_eq]
  split
  next hpos => rw [max_eq_left hpos.le]
  next hneg => rw [max_eq_right (not_lt.mp hneg)]

/-- Moves that follow others add the cost of the alignment that they make. -/
theorem pathCost_reverse_append (gaps : GapCosts Rat) (cost : Nat → Nat → Rat) (ms before : List Move) :
    pathCost gaps cost (ms.reverse ++ before) = pathCost gaps cost before +
      (ofMoves (localsUsed before) (candidatesUsed before) ms).totalCost gaps cost := by
  induction ms generalizing before with
  | nil => simp [totalCost, pairsCost, ofMoves]
  | cons mv ms ih =>
    rw [List.reverse_cons, List.append_assoc, List.singleton_append, ih, pathCost, localsUsed_cons,
      candidatesUsed_cons]
    cases mv <;>
      simp only [totalCost, pairsCost, ofMoves, Move.cost, Move.locals, Move.candidates, pairCost_eq,
        List.map_cons, List.sum_cons, List.length_cons, Nat.add_zero, Nat.cast_add, Nat.cast_one] <;>
      ring

theorem pathCost_eq (gaps : GapCosts Rat) (cost : Nat → Nat → Rat) (ms : List Move) :
    pathCost gaps cost ms = (ofMoves 0 0 ms.reverse).totalCost gaps cost := by
  have h := pathCost_reverse_append gaps cost ms.reverse []
  rw [List.reverse_reverse, List.append_nil] at h
  rw [h]
  exact zero_add _

theorem LeadsTo.complete {nLocal nCandidate : Nat} {ms : List Move} (h : LeadsTo nLocal nCandidate ms) :
    (ofMoves 0 0 ms.reverse).Complete nLocal nCandidate := complete_of_trace h.locals h.candidates

theorem LeadsTo.pairingCost_eq {nLocal nCandidate : Nat} {ms : List Move} (h : LeadsTo nLocal nCandidate ms) :
    pairingCost gaps cost nLocal nCandidate (ofMoves 0 0 ms.reverse).pairs = pathCost gaps cost ms := by
  rw [h.complete.pairingCost_eq, pathCost_eq]

end Alignment

section
variable {gaps : GapCosts Rat} {cost : Nat → Nat → Rat} {nLocal nCandidate : Nat}

open MusicImport.Alignment

namespace AlignmentCell

/-- Cheaper than another way into a cell, or of the same cost with a move that is not less preferred. -/
structure Beats (a b : AlignmentCell Rat) : Prop where
  cost : a.cost ≤ b.cost
  rank : a.cost = b.cost → a.move.rank ≤ b.move.rank

theorem Beats.refl (a : AlignmentCell Rat) : a.Beats a := ⟨le_rfl, fun _ => le_rfl⟩

theorem Beats.trans {a b c : AlignmentCell Rat} (h : a.Beats b) (h' : b.Beats c) : a.Beats c := by
  refine ⟨h.cost.trans h'.cost, fun heq => ?_⟩
  have hab : a.cost = b.cost := le_antisymm h.cost (heq ▸ h'.cost)
  exact (h.rank hab).trans (h'.rank (hab.symm.trans heq))

theorem orCheaper_beats {a b : AlignmentCell Rat} (h : a.move.rank ≤ b.move.rank) :
    (a.orCheaper b).Beats a ∧ (a.orCheaper b).Beats b := by
  unfold orCheaper
  simp only [Scalar.lt, decide_eq_true_eq]
  split
  next hlt => exact ⟨⟨hlt.le, fun heq => absurd heq hlt.ne⟩, .refl b⟩
  next hle => exact ⟨.refl a, not_lt.mp hle, fun _ => h⟩

theorem best_beats (gaps : GapCosts Rat) (c : Rat) (diagonal left above : AlignmentCell Rat) :
    (best gaps c diagonal left above).Beats (diagonal.pair c) ∧
      (best gaps c diagonal left above).Beats (left.skipCandidate gaps) ∧
      (best gaps c diagonal left above).Beats (above.skipLocal gaps) := by
  have hrank (mv : Move) : mv.rank ≤ 2 := by cases mv <;> decide
  obtain ⟨hpair, hcandidate⟩ : ((diagonal.pair c).orCheaper (left.skipCandidate gaps)).Beats _ ∧ _ :=
    orCheaper_beats (Nat.zero_le _)
  obtain ⟨hfirst, hlocal⟩ : (best gaps c diagonal left above).Beats _ ∧ _ := orCheaper_beats (hrank _)
  exact ⟨hfirst.trans hpair, hfirst.trans hcandidate, hlocal⟩

/-- A cell beats every move into it. -/
theorem after_beats (gaps : GapCosts Rat) (cost : Nat → Nat → Rat) (i j : Nat) (mv : Move) :
    (after gaps cost (i + mv.locals) (j + mv.candidates)).Beats
      ⟨(after gaps cost i j).cost + mv.cost gaps cost i j, mv⟩ := by
  have hbest (i j : Nat) := best_beats gaps (cost i j) (after gaps cost i j)
    (after gaps cost (i + 1) j) (after gaps cost i (j + 1))
  simp only [← after.eq_4] at hbest
  cases mv with
  | pair => exact (hbest i j).1
  | skipCandidate =>
    cases i with
    | zero =>
      change (after gaps cost 0 (j + 1)).Beats ((after gaps cost 0 j).skipCandidate gaps)
      rw [after]
      exact .refl _
    | succ i => exact (hbest i j).2.1
  | skipLocal =>
    cases j with
    | zero =>
      change (after gaps cost (i + 1) 0).Beats ((after gaps cost i 0).skipLocal gaps)
      rw [after]
      exact .refl _
    | succ j => exact (hbest i j).2.2

/-- No path to a cell costs less than the cell tells. -/
theorem after_le_pathCost (gaps : GapCosts Rat) (cost : Nat → Nat → Rat) (ms : List Move) :
    (after gaps cost (localsUsed ms) (candidatesUsed ms)).cost ≤ pathCost gaps cost ms := by
  induction ms with
  | nil =>
    rw [localsUsed_nil, candidatesUsed_nil, after]
    exact le_rfl
  | cons mv ms ih =>
    rw [localsUsed_cons, candidatesUsed_cons, pathCost]
    have hmove := (after_beats gaps cost (localsUsed ms) (candidatesUsed ms) mv).cost
    dsimp only at hmove
    linarith

end AlignmentCell

/-- The trace to a cell is the first of its cheapest paths. By induction on the other path: while both have
the same last move, what is left of it is a cheapest path again, to the cell before. -/
theorem traceBack_first {ms ms' : List Move} (hlocals : localsUsed ms' ≤ nLocal)
    (hcandidates : candidatesUsed ms' ≤ nCandidate)
    (htrace : (AlignmentTable.fill nLocal nCandidate gaps cost).traceBack (localsUsed ms')
      (candidatesUsed ms') = some ms)
    (hcost : pathCost gaps cost ms' =
      (AlignmentCell.after gaps cost (localsUsed ms') (candidatesUsed ms')).cost) :
    ms = ms' ∨ Before ms ms' := by
  induction ms' generalizing ms with
  | nil =>
    rw [AlignmentTable.traceBack.eq_def, if_pos ⟨rfl, rfl⟩] at htrace
    exact .inl (Option.some.inj htrace).symm
  | cons mv' rest' ih =>
    rw [localsUsed_cons] at hlocals
    rw [candidatesUsed_cons] at hcandidates
    rw [localsUsed_cons, candidatesUsed_cons] at htrace hcost
    rw [pathCost] at hcost
    have hbeats := AlignmentCell.after_beats gaps cost (localsUsed rest') (candidatesUsed rest') mv'
    have hleast := AlignmentCell.after_le_pathCost gaps cost rest'
    have hbefore := hbeats.cost
    dsimp only at hbefore
    have hrest : pathCost gaps cost rest' =
        (AlignmentCell.after gaps cost (localsUsed rest') (candidatesUsed rest')).cost := by linarith
    have hrank := hbeats.rank (by dsimp only; linarith)
    have hstart : ¬(localsUsed rest' + mv'.locals = 0 ∧ candidatesUsed rest' + mv'.candidates = 0) := by
      cases mv' <;> simp [Move.locals, Move.candidates]
    obtain ⟨i, j, mv, hi, hj, hcell⟩ := AlignmentCell.after_move gaps cost hstart
    have hmove : (AlignmentTable.fill nLocal nCandidate gaps cost).move? (i + mv.locals)
        (j + mv.candidates) = some mv := by
      rw [← hi, ← hj, AlignmentTable.move?, AlignmentTable.fill_cell? hlocals hcandidates, hcell]
      rfl
    rw [hi, hj, AlignmentTable.traceBack_move hmove] at htrace
    obtain ⟨rest, hrestTrace, rfl⟩ := Option.map_eq_some_iff.mp htrace
    rw [hcell] at hrank
    obtain hlt | heq := Nat.lt_or_eq_of_le hrank
    · exact .inr (.rel hlt)
    · obtain rfl := Move.rank_injective heq
      obtain rfl := Nat.add_right_cancel hi
      obtain rfl := Nat.add_right_cancel hj
      obtain rfl | hfirst := ih (by omega) (by omega) hrestTrace hrest
      · exact .inl rfl
      · exact .inr (.cons hfirst)

/-- For exact costs the alignment has the least cost of all pairings that keep the order of both sides, and
is one that costs as much. It is that of the path that is traced, which of all cheapest paths is the first:
from the last cell back it prefers a pair to a skipped candidate track, and that to a skipped local one. -/
theorem align_cheapest (nLocal nCandidate : Nat) (gaps : GapCosts Rat) (cost : Nat → Nat → Rat) :
    let r := align nLocal nCandidate gaps cost
    IsLeast {c | ∃ pairs, IsPairing nLocal nCandidate pairs ∧
        pairingCost gaps cost nLocal nCandidate pairs = c} r.cost ∧
      IsPairing nLocal nCandidate r.alignment.pairs ∧
      pairingCost gaps cost nLocal nCandidate r.alignment.pairs = r.cost ∧
      r.alignment.totalCost gaps cost = r.cost ∧
      ∃ ms, (AlignmentTable.fill nLocal nCandidate gaps cost).traceBack nLocal nCandidate = some ms ∧
        r.alignment = .ofMoves 0 0 ms.reverse ∧ LeadsTo nLocal nCandidate ms ∧
        pathCost gaps cost ms = r.cost ∧
        ∀ ms', LeadsTo nLocal nCandidate ms' → pathCost gaps cost ms' = r.cost →
          ms = ms' ∨ Before ms ms' := by
  intro r
  obtain ⟨ms, htrace, hlocals, hcandidates, hpath⟩ :=
    AlignmentTable.traceBack_fill gaps cost (Nat.le_refl nLocal) (Nat.le_refl nCandidate)
  have hms : LeadsTo nLocal nCandidate ms := ⟨hlocals, hcandidates⟩
  have hr : r.cost = (AlignmentCell.after gaps cost nLocal nCandidate).cost := align_cost _ _ _ _
  have halignment : r.alignment = .ofMoves 0 0 ms.reverse := align_of_trace htrace
  have hpairing : pairingCost gaps cost nLocal nCandidate r.alignment.pairs = r.cost := by
    rw [halignment, hms.pairingCost_eq, hpath, hr]
  have hcomplete : r.alignment.Complete nLocal nCandidate := align_complete _ _ _ _
  refine ⟨⟨⟨_, hcomplete.isPairing, hpairing⟩, ?_⟩, hcomplete.isPairing, hpairing, ?_, ms, htrace, halignment,
    hms, hpath.trans hr.symm, ?_⟩
  · rintro _ ⟨pairs, hpairs, rfl⟩
    obtain ⟨ms', hms', rfl⟩ := hpairs.exists_path
    have hleast := AlignmentCell.after_le_pathCost gaps cost ms'
    rwa [hms'.locals, hms'.candidates, ← hr, ← hms'.pairingCost_eq] at hleast
  · rw [← hcomplete.pairingCost_eq, hpairing]
  · intro ms' hms' hcost
    obtain ⟨rfl, rfl⟩ := hms'
    exact traceBack_first (Nat.le_refl _) (Nat.le_refl _) htrace (hcost.trans hr)

/-- A pair that costs as much as to leave both tracks alone is made. -/
theorem align_cheapest_tie : (align 1 1 ⟨1 / 2, 1 / 4⟩ fun _ _ => (3 / 4 : Rat)).alignment.pairs = [(0, 0)] ∧
    ∀ ms', LeadsTo 1 1 ms' → pathCost ⟨1 / 2, 1 / 4⟩ (fun _ _ => (3 / 4 : Rat)) ms' = 3 / 4 →
      [.pair] = ms' ∨ Before [.pair] ms' := by
  obtain ⟨-, -, -, -, ms, htrace, -, -, -, hfirst⟩ :=
    align_cheapest 1 1 ⟨1 / 2, 1 / 4⟩ fun _ _ => (3 / 4 : Rat)
  have hpair : (AlignmentTable.fill 1 1 ⟨1 / 2, 1 / 4⟩ fun _ _ => (3 / 4 : Rat)).traceBack 1 1 = some [.pair] := by
    decide +kernel
  have hcost : (align 1 1 ⟨1 / 2, 1 / 4⟩ fun _ _ => (3 / 4 : Rat)).cost = 3 / 4 := by decide +kernel
  obtain rfl := Option.some.inj (hpair.symm.trans htrace)
  rw [hcost] at hfirst
  exact ⟨by decide +kernel, hfirst⟩

end
end MusicImport
