import MusicImport.Proofs.Scoring.Bounds
import MusicImport.Proofs.Scoring.Fractions

/-! An album that agrees with its local tracks has no distance from them, and its tracks are aligned one by one. No
cell of the table costs less than nothing, so none is cheaper than a pair that costs nothing, and ties prefer pairs. -/
namespace MusicImport

open MusicImport.Alignment (Move)
open MusicImport.Scoring

namespace Alignment

/-- The first `n` of both sides, one by one. -/
def diagonal (n : Nat) : Alignment :=
  { pairs := (List.range n).map fun i => (i, i), unmatchedLocal := [], missingCandidate := [] }

theorem ofMoves_replicate (i n : Nat) :
    ofMoves i i (List.replicate n .pair) = { pairs := (List.range' i n).map fun k => (k, k) } := by
  induction n generalizing i with
  | zero => rfl
  | succ n ih =>
    rw [List.replicate_succ, List.range'_succ, List.map_cons, ofMoves, ih (i + 1)]

end Alignment

namespace AlignmentCell

theorem plus_pairCost (a : Float) : Plus (pairCost a).toModel.unpack := by
  unfold pairCost
  split
  next h =>
    rw [Bool.and_eq_true] at h
    exact (zero_lt_iff.mp (of_decide_eq_true h.2)).1
  split
  · rfl
  · rfl

theorem pairCost_zero {a : Float} (h : IsZero a.toModel.unpack) : pairCost a = Scalar.zero := by
  have hnumber : Scalar.isNaN a = false := AtLeastZero.isNaN (.inr h)
  rw [pairCost, lt_isZero h, hnumber, Bool.and_false]
  rfl

theorem orCheaper_start {b : AlignmentCell Float} (h : Plus b.cost.toModel.unpack) : start.orCheaper b = start := by
  have hlt : Scalar.lt b.cost (start : AlignmentCell Float).cost = false := plus_lt_zero h
  rw [orCheaper, hlt]
  rfl

end AlignmentCell

section
variable {gaps : GapCosts Float} {cost : Nat → Nat → Float} {n i : Nat}
  (hmissing : AtLeastZero gaps.missing.toModel.unpack) (hunmatched : AtLeastZero gaps.unmatched.toModel.unpack)
include hmissing hunmatched

/-- No cell costs less than nothing. -/
theorem AlignmentCell.plus_after (i j : Nat) : Plus (after gaps cost i j).cost.toModel.unpack := by
  induction hn : i + j using Nat.strong_induction_on generalizing i j with
  | _ n ih =>
    by_cases hstart : i = 0 ∧ j = 0
    · obtain ⟨rfl, rfl⟩ := hstart
      rw [after]
      rfl
    · obtain ⟨i', j', mv, rfl, rfl, hcell⟩ := after_move gaps cost hstart
      have hless : i' + j' < n := by cases mv <;> simp [Move.locals, Move.candidates] at hn ⊢ <;> omega
      have hmove : AtLeastZero (mv.cost gaps cost i' j').toModel.unpack := by
        cases mv with
        | pair => exact .inl (plus_pairCost _)
        | skipCandidate => exact hmissing
        | skipLocal => exact hunmatched
      rw [hcell]
      exact ((ih _ hless i' j' rfl).add hmove).pack

/-- Pairs that cost nothing lead along the diagonal: the skips into a cell of it come from cells that cost nothing
less, and ties go to the pair. -/
theorem AlignmentCell.after_diagonal (hcost : ∀ i < n, IsZero (cost i i).toModel.unpack) (hi : i ≤ n) :
    after gaps cost i i = start := by
  induction i with
  | zero => rw [after]
  | succ i ih =>
    have hpair : (start.pair (cost i i) : AlignmentCell Float) = start := by
      rw [pair, pairCost_zero (hcost i hi)]
      exact congrArg (AlignmentCell.mk · .pair) (Scoring.zero_add (b := Scalar.zero) trivial)
    rw [after, ih (Nat.le_of_succ_le hi), best, hpair, orCheaper_start, orCheaper_start]
    · exact ((plus_after hmissing hunmatched i (i + 1)).add hunmatched).pack
    · exact ((plus_after hmissing hunmatched (i + 1) i).add hmissing).pack

theorem AlignmentTable.traceBack_diagonal (hcost : ∀ i < n, IsZero (cost i i).toModel.unpack) (hi : i ≤ n) :
    (fill n n gaps cost).traceBack i i = some (List.replicate i .pair) := by
  induction i with
  | zero => simp [traceBack.eq_def]
  | succ i ih =>
    have hmove : (fill n n gaps cost).move? (i + 1) (i + 1) = some .pair := by
      rw [move?, fill_cell? hi hi, AlignmentCell.after_diagonal hmissing hunmatched hcost hi]
      rfl
    have htrace : (fill n n gaps cost).traceBack (i + Move.pair.locals) (i + Move.pair.candidates) = _ :=
      traceBack_move hmove
    rw [ih (Nat.le_of_succ_le hi)] at htrace
    exact htrace

theorem align_diagonal (hcost : ∀ i < n, IsZero (cost i i).toModel.unpack) :
    align n n gaps cost = ⟨.diagonal n, Scalar.zero⟩ := by
  have htrace := AlignmentTable.traceBack_diagonal hmissing hunmatched hcost (Nat.le_refl n)
  have halignment : (align n n gaps cost).alignment = .diagonal n := by
    rw [align_of_trace htrace, List.reverse_replicate, Alignment.ofMoves_replicate, ← List.range_eq_range']
    rfl
  have hcost : (align n n gaps cost).cost = Scalar.zero := by
    rw [align_cost, AlignmentCell.after_diagonal hmissing hunmatched hcost (Nat.le_refl n)]
    rfl
  rw [← halignment, ← hcost]

end

namespace Distance
variable {d : Distance Float}

/-- What was compared so far agrees. -/
def Free (d : Distance Float) : Prop := d.penalty = Scalar.zero ∧ Plus d.bound.toModel.unpack

theorem Free.contribute {c : Contribution Float} (h : d.Free) (hc : c.component.penalty = Scalar.zero) :
    (d.contribute c).Free := by
  rw [contribute_eq]
  obtain ⟨hpenalty, hbound⟩ := h
  obtain ⟨-, hadded, -, -⟩ := plus_component c
  refine ⟨?_, (hbound.add (.inl hadded)).pack⟩
  rw [hpenalty, hc]
  exact Scoring.zero_add (b := Scalar.zero) trivial

/-- Nothing that is not positive makes a penalty. -/
theorem nonnegative_zero {a : Float} (h : IsZero a.toModel.unpack) : Scalar.nonnegative a = Scalar.zero := by
  rw [Scalar.nonnegative, lt_isZero h, Bool.and_false]
  rfl

theorem min_zero {a : Float} (h : Plus a.toModel.unpack) : Scalar.min Scalar.zero a = Scalar.zero := by
  have hnumber : Scalar.isNaN a = false := h.isNaN
  rw [Scalar.min, plus_lt_zero h, hnumber]
  rfl

theorem component_fraction_zero (field : DistanceField) (weight : Float) :
    (Contribution.fraction field weight Scalar.zero).component.penalty = Scalar.zero := by
  obtain ⟨-, hfinite⟩ := plus_nonnegative weight
  have hunit : Scalar.unit (Scalar.zero : Float) = Scalar.zero := by decide
  have hproduct : IsZero (Scalar.nonnegative weight * Scalar.unit Scalar.zero).toModel.unpack := by
    rw [hunit]
    exact isZero_mul_zero hfinite
  simp only [Contribution.component, nonnegative_zero hproduct]
  exact min_zero (plus_nonnegative _).1

theorem component_penalty_zero (field : DistanceField) (bound : Float) :
    (Contribution.penalty field Scalar.zero bound).component.penalty = Scalar.zero := by
  simp only [Contribution.component, nonnegative_zero (a := Scalar.zero) trivial]
  exact min_zero (plus_nonnegative _).1

theorem Free.addField (h : d.Free) {f : FieldFraction Float} (hf : ∀ x ∈ f.fraction, x = Scalar.zero) :
    (d.addField f).Free := by
  unfold Distance.addField
  cases hfraction : f.fraction with
  | none => exact h
  | some x =>
    obtain rfl := hf x hfraction
    exact h.contribute (component_fraction_zero f.field f.weight)

theorem Free.addFields (h : d.Free) {fs : List (FieldFraction Float)}
    (hfs : ∀ f ∈ fs, ∀ x ∈ f.fraction, x = Scalar.zero) : (fs.foldl Distance.addField d).Free := by
  induction fs generalizing d with
  | nil => exact h
  | cons f fs ih => exact ih (h.addField (hfs f (.head _))) fun f' hf' => hfs f' (.tail _ hf')

theorem Free.similarity (h : d.Free) : d.similarity = Scalar.one := by
  have hnormalized : d.normalized = Scalar.zero := by
    unfold normalized
    rw [h.1]
    simp only [Scalar.le, decide_eq_true_eq]
    split
    · rfl
    next hle =>
    rw [Scoring.zero_div (lt_of_not_le_zero h.2 hle)]
    decide
  rw [Distance.similarity, hnormalized]
  decide

end Distance

/-- A candidate differs in nothing that both sides have: artist, title, label and catalog number in normal form, year,
number of discs, and id. -/
structure LocalAlbum.Agrees (l : LocalAlbum) (c : AlbumCandidate) : Prop where
  artist : ∀ a ∈ l.artist, Text.normalize a = Text.normalize c.artist
  album : ∀ a ∈ l.album, Text.normalize a = Text.normalize c.album
  year : ∀ a ∈ l.year, ∀ b ∈ c.year, a = b
  mediums : ∀ a ∈ l.mediums, ∀ b ∈ c.mediums, a = b
  label : ∀ a ∈ l.label, ∀ b ∈ c.label, Text.normalize a = Text.normalize b
  catalogNumber : ∀ a ∈ l.catalogNumber, ∀ b ∈ c.catalogNumber, Text.normalize a = Text.normalize b
  albumId : ∀ a ∈ l.albumId, c.id ≠ "" → a = c.id

section
variable {w : DistanceWeights Float} {tracks : List Track} {l : LocalAlbum} {c : AlbumCandidate}

theorem both_zero {β : Type} {a b : Option β} {f : β → β → Float} (h : ∀ x ∈ a, ∀ y ∈ b, f x y = Scalar.zero) :
    ∀ z ∈ both a b f, z = Scalar.zero := by
  intro z hz
  obtain ⟨x, hx, y, hy, rfl⟩ := both_eq_some.mp hz
  exact h x hx y hy

theorem mismatch_eq {β : Type} [DecidableEq β] {x y : β} (h : x = y) : (mismatch (x != y) : Float) = Scalar.zero := by
  rw [h, bne_self_eq_false]
  rfl

theorem idMismatch_zero {id : Option String} {candidateId : String} (h : ∀ a ∈ id, candidateId ≠ "" → a = candidateId) :
    ∀ z ∈ idMismatch id candidateId, z = (Scalar.zero : Float) := by
  intro z hz
  cases id with
  | none => cases hz
  | some a =>
    unfold idMismatch at hz
    dsimp only at hz
    split at hz
    · cases hz
    next hne =>
    obtain rfl := Option.some_inj.mp hz
    exact mismatch_eq (h a rfl hne)

theorem albumFields_zero (hspan : (Scalar.zero : Float) < w.yearSpan) (h : l.Agrees c) :
    ∀ f ∈ albumFields w l c, ∀ x ∈ f.fraction, x = Scalar.zero := by
  have htext {value : Option String} {s : String} (hsame : ∀ a ∈ value, Text.normalize a = Text.normalize s) :
      ∀ x ∈ value.map (textDistance · s), x = (Scalar.zero : Float) := by
    intro x hx
    obtain ⟨a, ha, rfl⟩ := Option.map_eq_some_iff.mp hx
    exact textDistance_eq_zero (hsame a ha)
  simp only [albumFields, List.forall_mem_cons, List.not_mem_nil, false_implies, implies_true, and_true]
  refine ⟨htext h.artist, htext h.album, both_zero fun a ha b hb => ?_,
    both_zero fun a ha b hb => mismatch_eq (h.mediums a ha b hb),
    both_zero fun a ha b hb => textDistance_eq_zero (h.label a ha b hb),
    both_zero fun a ha b hb => mismatch_eq (h.catalogNumber a ha b hb), idMismatch_zero h.albumId⟩
  rw [h.year a ha b hb, yearFraction, Int.sub_self]
  exact Scoring.zero_div hspan

theorem albumPairCost_zero (husable : w.Usable) (hspan : (Scalar.zero : Float) < w.trackIndexSpan)
    (h : List.Forall₂ (fun t ct => t.Agrees w c.variousArtists ct) tracks c.tracks) (i : Nat) :
    IsZero (albumPairCost w tracks c i i).toModel.unpack := by
  unfold albumPairCost
  split
  next t ct ht hct =>
    rw [List.getElem?_toArray] at ht hct
    obtain ⟨hi, rfl⟩ := List.getElem?_eq_some_iff.mp ht
    obtain ⟨hi', rfl⟩ := List.getElem?_eq_some_iff.mp hct
    have hagrees : tracks[i].Agrees w c.variousArtists c.tracks[i] := (List.forall₂_iff_get.mp h).2 i hi hi'
    rw [trackDistance_agrees husable (fun _ => hspan) hagrees]
    exact isZero_mul_zero (husable.weight "tracks" (by simp [DistanceWeights.named])).2
  · trivial

theorem alignTracks_agrees (husable : w.Usable) (hspan : (Scalar.zero : Float) < w.trackIndexSpan)
    (h : List.Forall₂ (fun t ct => t.Agrees w c.variousArtists ct) tracks c.tracks) :
    alignTracks w tracks c = ⟨.diagonal tracks.length, Scalar.zero⟩ := by
  rw [alignTracks_eq, ← h.length_eq]
  exact align_diagonal (husable.weight "missingTrack" (by simp [DistanceWeights.named])).1
    (husable.weight "unmatchedTrack" (by simp [DistanceWeights.named])).1 fun i _ =>
      albumPairCost_zero husable hspan h i

/-- Weights are finite and not negative and spans positive: where a candidate has the local tracks in their order and
agrees with them and with their album, there is no penalty, the similarity is one, and the tracks are aligned one by
one. -/
theorem albumDistance_agrees (husable : w.Usable) (hyear : (Scalar.zero : Float) < w.yearSpan)
    (hindex : (Scalar.zero : Float) < w.trackIndexSpan)
    (htracks : List.Forall₂ (fun t ct => t.Agrees w c.variousArtists ct) tracks c.tracks)
    (halbum : (LocalAlbum.ofTracks tracks).Agrees c) :
    (albumDistance w tracks c).1.penalty = Scalar.zero ∧ (albumDistance w tracks c).1.similarity = Scalar.one ∧
      (albumDistance w tracks c).2 =
        { pairs := (List.range tracks.length).map fun i => (i, i), unmatchedLocal := [], missingCandidate := [] } := by
  have haligned := alignTracks_agrees husable hindex htracks
  have hfields : (albumFieldsDistance w (LocalAlbum.ofTracks tracks) c).Free := by
    rw [albumFieldsDistance_eq]
    exact Distance.Free.addFields (d := .empty) ⟨rfl, rfl⟩ (albumFields_zero hyear halbum)
  have hfree : (albumDistance w tracks c).1.Free := by
    unfold albumDistance
    rw [haligned]
    exact hfields.contribute (Distance.component_penalty_zero .tracks _)
  refine ⟨hfree.1, hfree.similarity, ?_⟩
  unfold albumDistance
  rw [haligned]
  rfl

/-- Two tracks of one title, where tracks without a partner cost nothing. -/
theorem albumDistance_agrees_repeated :
    let w : DistanceWeights Float := { DistanceWeights.standard with missingTrack := 0.0, unmatchedTrack := 0.0 }
    let tracks : List Track :=
      [{ path := ⟨"in/a.flac"⟩, title := some "Intro", artist := some "Q", album := some "X", year := some 1999 },
       { path := ⟨"in/b.flac"⟩, title := some "Intro", artist := some "Q", album := some "X" }]
    let c : AlbumCandidate :=
      { id := "r", artist := "q", album := "X!", year := some 1999, tracks := [{ title := "intro" }, { title := "Intro" }] }
    w.Usable ∧ (Scalar.zero : Float) < w.yearSpan ∧ (Scalar.zero : Float) < w.trackIndexSpan ∧
      List.Forall₂ (fun t ct => t.Agrees w c.variousArtists ct) tracks c.tracks ∧
      (LocalAlbum.ofTracks tracks).Agrees c ∧
      (albumDistance w tracks c).1.penalty = Scalar.zero ∧ (albumDistance w tracks c).1.similarity = Scalar.one ∧
      (albumDistance w tracks c).2 = { pairs := [(0, 0), (1, 1)], unmatchedLocal := [], missingCandidate := [] } := by
  intro w tracks c
  have husable : w.Usable :=
    DistanceWeights.usable_of_accepted (Option.isNone_iff_eq_none.mp (by decide +kernel))
  have hyear : (Scalar.zero : Float) < w.yearSpan := by decide +kernel
  have hindex : (Scalar.zero : Float) < w.trackIndexSpan := by decide +kernel
  have htracks : List.Forall₂ (fun t ct => t.Agrees w c.variousArtists ct) tracks c.tracks :=
    .cons ⟨by decide +kernel, nofun, nofun, nofun⟩ (.cons ⟨by decide +kernel, nofun, nofun, nofun⟩ .nil)
  have hlocal : LocalAlbum.ofTracks tracks = ⟨some "Q", some "X", some 1999, none, none, none, none⟩ := by
    decide +kernel
  have halbum : (LocalAlbum.ofTracks tracks).Agrees c := by
    rw [hlocal]
    exact ⟨by rintro a ⟨⟩; decide +kernel, by rintro a ⟨⟩; decide +kernel, by rintro a ⟨⟩ b ⟨⟩; rfl, nofun, nofun, nofun,
      nofun⟩
  obtain ⟨hpenalty, hsimilarity, halignment⟩ := albumDistance_agrees husable hyear hindex htracks halbum
  exact ⟨husable, hyear, hindex, htracks, halbum, hpenalty, hsimilarity, halignment⟩

end
end MusicImport
