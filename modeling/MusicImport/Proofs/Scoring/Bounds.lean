import Mathlib.Algebra.Order.BigOperators.Group.List
import MusicImport.Proofs.Scoring.Cheapest

/-! What aligned tracks can cost at most. A pair costs at most the factor of pairs, so what an alignment
costs is bounded by a linear function of its number of pairs, and that is largest at one of the two ends. -/
namespace MusicImport

open MusicImport.Alignment

section
variable {α : Type} [Scalar α]

/-- A field with its weight, and the fraction that its two values differ by where both are there. -/
structure FieldFraction (α : Type) where
  field : DistanceField
  weight : α
  fraction : Option α

def Distance.addField (d : Distance α) (f : FieldFraction α) : Distance α :=
  d.addSome f.field f.weight f.fraction

/-- The album fields in the order in which they are compared. -/
def albumFields (w : DistanceWeights α) (l : LocalAlbum) (c : AlbumCandidate) : List (FieldFraction α) :=
  [⟨.artist, w.artist, l.artist.map (textDistance · c.artist)⟩,
   ⟨.album, w.album, l.album.map (textDistance · c.album)⟩,
   ⟨.year, w.year, both l.year c.year (yearFraction w)⟩,
   ⟨.mediums, w.mediums, both l.mediums c.mediums fun a b => mismatch (a != b)⟩,
   ⟨.label, w.label, both l.label c.label textDistance⟩,
   ⟨.catalogNumber, w.catalogNumber, both l.catalogNumber c.catalogNumber fun a b =>
      mismatch (Text.normalize a != Text.normalize b)⟩,
   ⟨.albumId, w.albumId, idMismatch l.albumId c.id⟩]

theorem albumFieldsDistance_eq (w : DistanceWeights α) (l : LocalAlbum) (c : AlbumCandidate) :
    albumFieldsDistance w l c = (albumFields w l c).foldl Distance.addField .empty := rfl

theorem Distance.field_of_mem_addFields {d : Distance α} {fs : List (FieldFraction α)}
    {k : DistanceComponent α} (h : k ∈ (fs.foldl Distance.addField d).components) :
    k ∈ d.components ∨ k.field ∈ fs.map (·.field) := by
  induction fs generalizing d with
  | nil => exact .inl h
  | cons f fs ih =>
    obtain hd | hfield := ih h
    · cases hfraction : f.fraction with
      | none =>
        rw [addField, hfraction] at hd
        exact .inl hd
      | some x =>
        rw [addField, hfraction] at hd
        obtain hold | hnew := List.mem_append.mp hd
        · exact .inl hold
        · obtain rfl := List.mem_singleton.mp hnew
          exact .inr (.head _)
    · exact .inr (.tail _ hfield)

/-- The tracks are none of the album fields. -/
theorem albumFieldsDistance_field {w : DistanceWeights α} {l : LocalAlbum} {c : AlbumCandidate}
    {k : DistanceComponent α} (h : k ∈ (albumFieldsDistance w l c).components) : k.field ≠ .tracks := by
  intro htracks
  rw [albumFieldsDistance_eq] at h
  obtain hnone | hfield := Distance.field_of_mem_addFields h
  · cases hnone
  · have hfields : (albumFields w l c).map (·.field) =
        [.artist, .album, .year, .mediums, .label, .catalogNumber, .albumId] := rfl
    rw [htracks, hfields] at hfield
    revert hfield
    decide

/-- What it costs to pair a local track with one of an album. -/
def albumPairCost (w : DistanceWeights α) (tracks : List Track) (c : AlbumCandidate) (i j : Nat) : α :=
  match tracks.toArray[i]?, c.tracks.toArray[j]? with
  | some t, some ct => w.tracks * trackDistance w c.variousArtists t ct
  | _, _ => Scalar.zero

theorem alignTracks_eq (w : DistanceWeights α) (tracks : List Track) (c : AlbumCandidate) :
    alignTracks w tracks c = align tracks.length c.tracks.length ⟨w.missingTrack, w.unmatchedTrack⟩
      (albumPairCost w tracks c) := rfl

end

section
variable {w : DistanceWeights ℚ}

theorem scalarClamp_mem_Icc (q : ℚ) : Scalar.clamp q ∈ Set.Icc (0 : ℚ) 1 := by
  have hzero : (Scalar.zero : ℚ) = 0 := rfl
  have hone : (Scalar.one : ℚ) = 1 := rfl
  simp only [Scalar.clamp, Scalar.lt, hzero, hone, decide_eq_true_eq]
  split
  · exact ⟨le_rfl, zero_le_one⟩
  next hnonneg =>
  split
  · exact ⟨zero_le_one, le_rfl⟩
  next hle => exact ⟨not_lt.mp hnonneg, not_lt.mp hle⟩

theorem scalarMax_eq (p q : ℚ) : Scalar.max p q = max p q := by
  simp only [Scalar.max, Scalar.isNaN, Scalar.lt, Bool.false_eq_true, if_false, decide_eq_true_eq]
  split
  next hlt => exact (max_eq_right hlt.le).symm
  next hle => exact (max_eq_left (not_lt.mp hle)).symm

theorem scalarNonnegative_eq {q : ℚ} (h : 0 ≤ q) : Scalar.nonnegative q = q := by
  have hzero : (Scalar.zero : ℚ) = 0 := rfl
  simp only [Scalar.nonnegative, Scalar.isFinite, Scalar.lt, hzero, Bool.true_and, decide_eq_true_eq]
  split
  · rfl
  next hle => exact le_antisymm h (not_lt.mp hle)

theorem scalarMin_eq (p q : ℚ) : Scalar.min p q = min p q := by
  simp only [Scalar.min, Scalar.isNaN, Scalar.lt, Bool.false_eq_true, if_false, decide_eq_true_eq]
  split
  next hlt => exact (min_eq_right hlt.le).symm
  next hle => exact (min_eq_left (not_lt.mp hle)).symm

theorem value_mem_Icc (m : WeightedMean ℚ) : m.value ∈ Set.Icc (0 : ℚ) 1 := by
  unfold WeightedMean.value
  split
  · exact ⟨le_rfl, rfl.le.trans zero_le_one⟩
  · exact scalarClamp_mem_Icc _

theorem trackDistance_mem_Icc (w : DistanceWeights ℚ) (variousArtists : Bool) (t : Track)
    (c : CandidateTrack) : trackDistance w variousArtists t c ∈ Set.Icc (0 : ℚ) 1 :=
  value_mem_Icc _

/-- No pair costs more than the factor of pairs. -/
theorem albumPairCost_le (htracks : 0 ≤ w.tracks) (tracks : List Track) (c : AlbumCandidate) (i j : Nat) :
    max (albumPairCost w tracks c i j) 0 ≤ w.tracks := by
  refine max_le ?_ htracks
  unfold albumPairCost
  split
  next t ct _ _ =>
    exact mul_le_of_le_one_right htracks (trackDistance_mem_Icc w c.variousArtists t ct).2
  · exact htracks

namespace Alignment

variable {gaps : GapCosts ℚ} {cost : Nat → Nat → ℚ} {nLocal nCandidate : Nat} {a : Alignment}

theorem pairsCost_nonneg (cost : Nat → Nat → ℚ) (pairs : List (Nat × Nat)) : 0 ≤ pairsCost cost pairs :=
  List.sum_nonneg fun _ h => by
    obtain ⟨p, -, rfl⟩ := List.mem_map.mp h
    exact le_max_right _ _

theorem pairsCost_le {most : ℚ} (h : ∀ i j, max (cost i j) 0 ≤ most) (pairs : List (Nat × Nat)) :
    pairsCost cost pairs ≤ most * (pairs.length : Nat) := by
  induction pairs with
  | nil => simp [pairsCost]
  | cons p pairs ih =>
    have hp := h p.1 p.2
    simp only [pairsCost, List.map_cons, List.sum_cons, List.length_cons, Nat.cast_add, Nat.cast_one] at ih ⊢
    linarith

/-- Each pair and each track without a partner takes one of the candidate tracks. -/
theorem Complete.length_candidates (h : a.Complete nLocal nCandidate) :
    a.pairs.length + a.missingCandidate.length = nCandidate := by
  simpa using h.candidates.length_eq

theorem totalCost_nonneg (hmissing : 0 ≤ gaps.missing) (hunmatched : 0 ≤ gaps.unmatched) (a : Alignment) :
    0 ≤ a.totalCost gaps cost :=
  add_nonneg (add_nonneg (pairsCost_nonneg cost _) (mul_nonneg hmissing (Nat.cast_nonneg _)))
    (mul_nonneg hunmatched (Nat.cast_nonneg _))

end Alignment

theorem align_totalCost (nLocal nCandidate : Nat) (gaps : GapCosts ℚ) (cost : Nat → Nat → ℚ) :
    (align nLocal nCandidate gaps cost).alignment.totalCost gaps cost =
      (align nLocal nCandidate gaps cost).cost := by
  obtain ⟨ms, htrace, -, -, hpath⟩ :=
    AlignmentTable.traceBack_fill gaps cost (Nat.le_refl nLocal) (Nat.le_refl nCandidate)
  rw [align_of_trace htrace, ← pathCost_eq, hpath, align_cost]

theorem totalCost_le_pairedBound {tracks : List Track} {c : AlbumCandidate} {nLocal nCandidate : Nat}
    {a : Alignment} (h : a.Complete nLocal nCandidate) (htracks : 0 ≤ w.tracks) :
    a.totalCost ⟨w.missingTrack, w.unmatchedTrack⟩ (albumPairCost w tracks c) ≤
      pairedBound w nLocal nCandidate a.pairs.length := by
  have hmissing : nCandidate - a.pairs.length = a.missingCandidate.length := by
    have := h.length_candidates
    omega
  have hunmatched : nLocal - a.pairs.length = a.unmatchedLocal.length := by
    have := h.length_locals
    omega
  rw [pairedBound, hmissing, hunmatched]
  have hpairs := pairsCost_le (albumPairCost_le htracks tracks c) a.pairs
  exact add_le_add_left (add_le_add_left hpairs _) _

/-- The bound is linear in the number of pairs, so it is largest without a pair or with as many as there can be. -/
theorem pairedBound_le_tracksBound (w : DistanceWeights ℚ) {nLocal nCandidate k : Nat} (hlocal : k ≤ nLocal)
    (hcandidate : k ≤ nCandidate) : pairedBound w nLocal nCandidate k ≤ tracksBound w nLocal nCandidate := by
  have hlinear {n : Nat} (hn : n ≤ nLocal) (hn' : n ≤ nCandidate) : pairedBound w nLocal nCandidate n =
      pairedBound w nLocal nCandidate 0 + (n : ℚ) * (w.tracks - w.missingTrack - w.unmatchedTrack) := by
    simp only [pairedBound, Scalar.ofNat, Nat.cast_sub hn, Nat.cast_sub hn', Nat.sub_zero, Nat.cast_zero]
    ring
  have hmost : k ≤ min nLocal nCandidate := le_min hlocal hcandidate
  have hcast : (k : ℚ) ≤ (min nLocal nCandidate : Nat) := Nat.cast_le.mpr hmost
  rw [tracksBound, scalarMax_eq, hlinear hlocal hcandidate]
  obtain hfalls | hrises := le_total (w.tracks - w.missingTrack - w.unmatchedTrack) 0
  · refine le_max_of_le_left ?_
    have := mul_nonpos_of_nonneg_of_nonpos (Nat.cast_nonneg (α := ℚ) k) hfalls
    linarith
  · refine le_max_of_le_right ?_
    change _ ≤ pairedBound w nLocal nCandidate (min nLocal nCandidate)
    rw [hlinear (min_le_left _ _) (min_le_right _ _)]
    have := mul_le_mul_of_nonneg_right hcast hrises
    linarith

/-- In exact arithmetic no alignment of tracks costs more than the bound for their numbers, so what the tracks add
to the distance of an album is what their alignment costs. -/
theorem albumDistance_tracks_uncut (htracks : 0 ≤ w.tracks) (hmissing : 0 ≤ w.missingTrack)
    (hunmatched : 0 ≤ w.unmatchedTrack) (tracks : List Track) (c : AlbumCandidate) :
    let fields := albumFieldsDistance w (LocalAlbum.ofTracks tracks) c
    let cost := (alignTracks w tracks c).cost
    let bound := tracksBound w tracks.length c.tracks.length
    let d := (albumDistance w tracks c).1
    0 ≤ cost ∧ cost ≤ bound ∧ d.components = fields.components ++ [⟨.tracks, cost, bound⟩] ∧
      d.penalty = fields.penalty + cost ∧ d.bound = fields.bound + bound ∧ d.penaltyFor .tracks = cost := by
  intro fields cost bound d
  have hcomplete : (alignTracks w tracks c).alignment.Complete tracks.length c.tracks.length :=
    align_complete _ _ _ _
  have htotal : (alignTracks w tracks c).alignment.totalCost ⟨w.missingTrack, w.unmatchedTrack⟩
      (albumPairCost w tracks c) = cost := align_totalCost _ _ _ _
  have hnonneg : 0 ≤ cost := htotal ▸ totalCost_nonneg hmissing hunmatched _
  have hle : cost ≤ bound := by
    have hlocals := hcomplete.length_locals
    have hcandidates := hcomplete.length_candidates
    rw [← htotal]
    exact (totalCost_le_pairedBound hcomplete htracks).trans
      (pairedBound_le_tracksBound w (by omega) (by omega))
  have hadded : d = ⟨fields.penalty + cost, fields.bound + bound,
      fields.components ++ [⟨.tracks, cost, bound⟩]⟩ := by
    have hcut : Scalar.min (Scalar.nonnegative cost) (Scalar.nonnegative bound) = cost := by
      rw [scalarNonnegative_eq hnonneg, scalarNonnegative_eq (hnonneg.trans hle), scalarMin_eq, min_eq_left hle]
    change fields.addPenalty .tracks cost bound = _
    simp only [Distance.addPenalty, hcut]
    rw [scalarNonnegative_eq (hnonneg.trans hle)]
  have hfields : fields.components.filter (·.field = .tracks) = [] := by
    rw [List.filter_eq_nil_iff]
    exact fun k hk => by simpa using albumFieldsDistance_field hk
  refine ⟨hnonneg, hle, by rw [hadded], by rw [hadded], by rw [hadded], ?_⟩
  rw [hadded, Distance.penaltyFor]
  simp only [List.filter_append, hfields]
  exact zero_add _

/-- Two local tracks of which an album has one: the pair costs nothing, the other track what it costs to leave over. -/
theorem albumDistance_tracks_uncut_extra :
    let w : DistanceWeights ℚ :=
      { artist := 3, album := 3, year := 1, mediums := 1, label := 1 / 2, catalogNumber := 1 / 2, albumId := 5, tracks := 1,
        missingTrack := 9 / 10, unmatchedTrack := 3 / 5, trackTitle := 3, trackArtist := 2, trackIndex := 1,
        trackLength := 2, trackId := 5, trackLengthGrace := 10, trackLengthMax := 30, yearSpan := 10,
        trackIndexSpan := 1 }
    let tracks : List Track := [{ path := ⟨"in/a.flac"⟩, title := some "A" }, { path := ⟨"in/b.flac"⟩, title := some "B" }]
    let c : AlbumCandidate := { id := "r", artist := "Q", album := "X", tracks := [{ title := "B" }] }
    0 ≤ w.tracks ∧ 0 ≤ w.missingTrack ∧ 0 ≤ w.unmatchedTrack ∧ tracksBound w 2 1 = 21 / 10 ∧
      (alignTracks w tracks c).cost = 3 / 5 ∧ (albumDistance w tracks c).1.penaltyFor .tracks = 3 / 5 := by
  intro w tracks c
  have hcost : (alignTracks w tracks c).cost = 3 / 5 := by decide +kernel
  obtain ⟨-, -, -, -, -, hpenalty⟩ := albumDistance_tracks_uncut (w := w) (by decide +kernel) (by decide +kernel)
    (by decide +kernel) tracks c
  exact ⟨by decide +kernel, by decide +kernel, by decide +kernel, by decide +kernel, hcost, hpenalty.trans hcost⟩

end
end MusicImport
