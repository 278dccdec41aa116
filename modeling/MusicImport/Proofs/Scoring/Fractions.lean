import MusicImport.Proofs.Scoring.Means

/-! Distances of tracks are fractions, unless track numbers are compared over a span that is no number or both sums
of a mean grow beyond all finite doubles. Tracks that agree have a distance of zero. -/
namespace MusicImport

section
variable {α : Type} [Scalar α]

/-- What two tracks are compared by, each fraction after its weight. -/
def trackFractions (w : DistanceWeights α) (variousArtists : Bool) (t : Track) (c : CandidateTrack) : List (α × α) :=
  (w.trackTitle, textDistance t.displayTitle c.title) ::
    (((indexFraction w t c).map (w.trackIndex, ·)).toList ++
      ((both t.length c.length (lengthFraction w)).map (w.trackLength, ·)).toList ++
      if variousArtists then ((both t.artist c.artist textDistance).map (w.trackArtist, ·)).toList else [])

theorem trackDistance_eq (w : DistanceWeights α) (variousArtists : Bool) (t : Track) (c : CandidateTrack) :
    trackDistance w variousArtists t c = (WeightedMean.of (trackFractions w variousArtists t c)).value := by
  unfold trackDistance WeightedMean.of trackFractions
  simp only [WeightedMean.addSome_eq, List.foldl_cons, List.foldl_append]
  cases variousArtists <;> rfl

end

section
variable {α : Type}

theorem both_eq_some {β γ : Type} {a b : Option β} {f : β → β → γ} {z : γ} :
    both a b f = some z ↔ ∃ x ∈ a, ∃ y ∈ b, f x y = z := by
  cases a with
  | none => simp [both]
  | some x =>
    cases b with
    | none => simp [both]
    | some y => simp [both]

theorem mem_weighted {β : Type} {o : Option β} {weight : α} {f : α × β} :
    f ∈ (o.map (weight, ·)).toList ↔ ∃ x ∈ o, f = (weight, x) := by
  rw [Option.mem_toList, Option.map_eq_some_iff]
  exact exists_congr fun x => and_congr_right fun _ => eq_comm

theorem mem_weighted_both {β γ : Type} {a b : Option β} {g : β → β → γ} {weight : α} {f : α × γ} :
    f ∈ ((both a b g).map (weight, ·)).toList ↔ ∃ x ∈ a, ∃ y ∈ b, f = (weight, g x y) := by
  rw [mem_weighted]
  constructor
  · rintro ⟨z, hboth, rfl⟩
    obtain ⟨x, hx, y, hy, rfl⟩ := both_eq_some.mp hboth
    exact ⟨x, hx, y, hy, rfl⟩
  · rintro ⟨x, hx, y, hy, rfl⟩
    exact ⟨_, both_eq_some.mpr ⟨x, hx, y, hy, rfl⟩, rfl⟩

/-- The discs are the same where both are known. -/
def SameDisc (t : Track) (c : CandidateTrack) : Prop := ∀ d ∈ t.discNumber, ∀ m ∈ c.medium, d = m

/-- Both tracks have a number, and they are not on different discs. -/
def NumbersCompared (t : Track) (c : CandidateTrack) : Prop :=
  t.trackNumber.isSome ∧ c.trackNumber.isSome ∧ SameDisc t c

/-- The texts of two tracks that may be compared. -/
def comparedTexts (t : Track) (c : CandidateTrack) : List String :=
  t.displayTitle :: c.title :: (t.artist.toList ++ c.artist.toList)

variable [Scalar α] {w : DistanceWeights α} {variousArtists : Bool} {t : Track} {c : CandidateTrack}

/-- A candidate track differs in nothing that both sides have: titles and artists in normal form, numbers, discs where
there are numbers, and lengths by more than costs nothing. -/
structure Track.Agrees (w : DistanceWeights α) (variousArtists : Bool) (t : Track) (c : CandidateTrack) : Prop where
  title : Text.normalize t.displayTitle = Text.normalize c.title
  number : ∀ a ∈ t.trackNumber, ∀ b ∈ c.trackNumber, a = b ∧ SameDisc t c
  length : ∀ a ∈ t.length, ∀ b ∈ c.length,
    Scalar.le (Scalar.ofNat (natDiff a b) / Scalar.ofNat 1000) w.trackLengthGrace = true
  artist : variousArtists = true → ∀ a ∈ t.artist, ∀ b ∈ c.artist, Text.normalize a = Text.normalize b

theorem mem_indexFraction {x : α} : x ∈ indexFraction w t c ↔
    ∃ a ∈ t.trackNumber, ∃ b ∈ c.trackNumber, SameDisc t c ∧ x = Scalar.ofNat (natDiff a b) / w.trackIndexSpan ∨
      ¬ SameDisc t c ∧ x = Scalar.one := by
  unfold indexFraction SameDisc
  cases t.trackNumber with
  | none => simp
  | some a =>
  cases c.trackNumber with
  | none => simp
  | some b =>
  simp only [Option.mem_def, Option.some.injEq, exists_eq_left']
  cases t.discNumber with
  | none => simpa using eq_comm
  | some d =>
  cases c.medium with
  | none => simpa using eq_comm
  | some m =>
  by_cases hsame : d = m
  · simpa [hsame] using eq_comm
  · simpa [hsame] using eq_comm

theorem mem_trackFractions {f : α × α} : f ∈ trackFractions w variousArtists t c ↔
    f = (w.trackTitle, textDistance t.displayTitle c.title) ∨
      (∃ x ∈ indexFraction w t c, f = (w.trackIndex, x)) ∨
      (∃ a ∈ t.length, ∃ b ∈ c.length, f = (w.trackLength, lengthFraction w a b)) ∨
      (variousArtists = true ∧ ∃ a ∈ t.artist, ∃ b ∈ c.artist, f = (w.trackArtist, textDistance a b)) := by
  have hartist : (f ∈ if variousArtists then ((both t.artist c.artist textDistance).map (w.trackArtist, ·)).toList
      else []) ↔ variousArtists = true ∧ ∃ a ∈ t.artist, ∃ b ∈ c.artist, f = (w.trackArtist, textDistance a b) := by
    cases variousArtists with
    | true => exact mem_weighted_both.trans ⟨fun h => ⟨rfl, h⟩, (·.2)⟩
    | false => exact ⟨nofun, nofun⟩
  rw [trackFractions, List.mem_cons, List.mem_append, List.mem_append, mem_weighted, mem_weighted_both, hartist,
    or_assoc]

end

namespace DistanceWeights

/-- Weights that are finite and not negative. -/
def Usable (w : DistanceWeights Float) : Prop :=
  ∀ p ∈ w.named, p.2.isFinite = true ∧ (Scalar.zero : Float) ≤ p.2

variable {w : DistanceWeights Float}

theorem Usable.weight (h : w.Usable) (name : String) {v : Float} (hv : (name, v) ∈ w.named) :
    Scoring.AtLeastZero v.toModel.unpack ∧ v.isFinite = true :=
  ⟨Scoring.zero_le_iff.mp (h _ hv).2, (h _ hv).1⟩

theorem usable_of_accepted (h : w.fault? = none) : w.Usable := by
  intro p hp
  unfold fault? at h
  split at h
  · cases h
  next hnone =>
  have hsound := List.find?_eq_none.mp hnone p hp
  simp only [Scalar.isFinite, Scalar.lt, Bool.or_eq_true, Bool.not_eq_true', decide_eq_true_eq, not_or,
    Bool.not_eq_false] at hsound
  exact ⟨hsound.1, Scoring.le_of_not_lt (Scoring.isNaN_of_isFinite hsound.1) rfl hsound.2⟩

theorem spans_of_accepted (h : w.fault? = none) : ¬ w.trackLengthMax ≤ w.trackLengthGrace ∧
    ¬ w.yearSpan ≤ (Scalar.zero : Float) ∧ ¬ w.trackIndexSpan ≤ (Scalar.zero : Float) := by
  unfold fault? at h
  split at h
  · cases h
  split at h
  · cases h
  next hlength =>
  split at h
  · cases h
  next hspans =>
  simp only [Scalar.le, Bool.or_eq_true, decide_eq_true_eq, not_or] at hlength hspans
  exact ⟨hlength, hspans⟩

/-- A span of track numbers that is not refused may be no number. -/
theorem indexSpan_of_accepted (h : w.fault? = none) :
    w.trackIndexSpan.isNaN = true ∨ (Scalar.zero : Float) < w.trackIndexSpan := by
  by_cases hnumber : w.trackIndexSpan.isNaN = true
  · exact .inl hnumber
  · refine .inr (Decidable.byContradiction fun hlt => (spans_of_accepted h).2.2 ?_)
    exact Scoring.le_of_not_lt rfl (Bool.eq_false_iff.mpr hnumber) hlt

end DistanceWeights

namespace Scoring

open Float.Model (UnpackedFloat)

/-- The distance of two texts is a number; the length of the longer one is counted in a word. -/
theorem isNaN_textDistance {s s' : String} (hs : (Text.normalize s).length < 2 ^ 64)
    (hs' : (Text.normalize s').length < 2 ^ 64) : (textDistance s s' : Float).isNaN = false := by
  unfold textDistance
  dsimp only
  split
  · rfl
  next hne =>
  obtain ⟨k, hk⟩ : ∃ k, k = max (Text.normalize s).toList.length (Text.normalize s').toList.length := ⟨_, rfl⟩
  have hpos : 0 < k := by
    refine Nat.pos_of_ne_zero fun hzero => hne ?_
    have hempty {u : String} (hu : u.toList.length ≤ k) : u.toList = [] :=
      List.eq_nil_of_length_eq_zero (Nat.le_zero.mp (hzero ▸ hu))
    exact String.toList_inj.mp ((hempty (hk ▸ Nat.le_max_left _ _)).trans (hempty (hk ▸ Nat.le_max_right _ _)).symm)
  have hfits : k < 2 ^ 64 := by
    rw [hk, String.length_toList, String.length_toList]
    exact Nat.max_lt.mpr ⟨hs, hs'⟩
  obtain ⟨m, e, hm, hparts⟩ := ofNat_parts hpos hfits
  have hlonger : (Scalar.zero : Float) < Scalar.ofNat k := by
    rw [zero_lt_iff, hparts]
    exact ⟨rfl, id⟩
  obtain ⟨hedits, hfinite⟩ := plus_ofNat (editDistance (Text.normalize s).toList (Text.normalize s').toList)
  rw [← hk]
  exact isNaN_finite_sub rfl (isNaN_finite_sub rfl (plus_div hedits hfinite hlonger).isNaN)

theorem textDistance_eq_zero {α : Type} [Scalar α] {s s' : String} (h : Text.normalize s = Text.normalize s') :
    (textDistance s s' : α) = Scalar.zero := if_pos h

/-- The difference of two lengths in seconds. -/
theorem plus_seconds (a b : Nat) : Plus (Scalar.ofNat (natDiff a b) / Scalar.ofNat 1000 : Float).toModel.unpack := by
  obtain ⟨hplus, hfinite⟩ := plus_ofNat (natDiff a b)
  exact plus_div hplus hfinite (by decide)

/-- The fraction of two lengths is from zero to one, also over a span that is infinite or no number. -/
theorem inUnit_lengthFraction {w : DistanceWeights Float} (h : w.fault? = none) (a b : Nat) :
    inUnit (lengthFraction w a b) = true := by
  obtain ⟨hgrace, hfinite⟩ : AtLeastZero w.trackLengthGrace.toModel.unpack ∧ w.trackLengthGrace.isFinite = true :=
    (DistanceWeights.usable_of_accepted h).weight "trackLengthGraceSecs" (by simp [DistanceWeights.named])
  have hmost := (DistanceWeights.spans_of_accepted h).1
  have hseconds := plus_seconds a b
  unfold lengthFraction
  simp only [Scalar.le, decide_eq_true_eq]
  split
  · exact inUnit_zero
  next hover =>
  have hexcess : Plus (Scalar.ofNat (natDiff a b) / Scalar.ofNat 1000 - w.trackLengthGrace : Float).toModel.unpack :=
    plus_sub_of_lt (.inl hseconds) hgrace hfinite
      (Decidable.byContradiction fun hlt => hover (le_of_not_lt hgrace.isNaN hseconds.isNaN hlt))
  apply inUnit_min_one
  by_cases hnone : w.trackLengthMax.isNaN = true
  · exact .inl (isNaN_div (.inr (isNaN_sub_left hnone)))
  · have hlt : w.trackLengthGrace < w.trackLengthMax := Decidable.byContradiction fun hlt =>
      hmost (le_of_not_lt hgrace.isNaN (Bool.eq_false_iff.mpr hnone) hlt)
    have hspan : Plus (w.trackLengthMax - w.trackLengthGrace).toModel.unpack :=
      plus_sub_of_lt (atLeastZero_of_lt hgrace hlt) hgrace hfinite hlt
    exact (plus_div_or_isNaN hexcess hspan).symm.imp_right .inl

end Scoring

section
open Scoring

variable {w : DistanceWeights Float} {variousArtists : Bool} {t : Track} {c : CandidateTrack}

theorem MatchConfig.weights_of_accepted {m : MatchConfig Float} (h : m.fault? = none) : m.weights.fault? = none := by
  unfold fault? at h
  split at h
  · cases h
  split at h
  · cases h
  · exact h

theorem weighted_trackFractions (h : w.Usable) : Weighted (trackFractions w variousArtists t c) := by
  intro f hf
  obtain rfl | ⟨x, -, rfl⟩ | ⟨a, -, b, -, rfl⟩ | ⟨-, a, -, b, -, rfl⟩ := mem_trackFractions.mp hf
  · exact h.weight "trackTitle" (by simp [DistanceWeights.named])
  · exact h.weight "trackIndex" (by simp [DistanceWeights.named])
  · exact h.weight "trackLength" (by simp [DistanceWeights.named])
  · exact h.weight "trackArtist" (by simp [DistanceWeights.named])

/-- Of what two tracks are compared by, only the difference of their numbers may be no number. -/
theorem isNaN_trackFractions (h : w.fault? = none)
    (htexts : ∀ s ∈ comparedTexts t c, (Text.normalize s).length < 2 ^ 64) :
    (∃ f ∈ trackFractions w variousArtists t c, f.2.isNaN = true) ↔
      w.trackIndexSpan.isNaN = true ∧ NumbersCompared t c := by
  constructor
  · rintro ⟨f, hf, hnone⟩
    obtain rfl | ⟨x, hx, rfl⟩ | ⟨a, -, b, -, rfl⟩ | ⟨-, a, ha, b, hb, rfl⟩ := mem_trackFractions.mp hf <;>
      dsimp only at hnone
    · rw [isNaN_textDistance (htexts _ (.head _)) (htexts _ (.tail _ (.head _)))] at hnone
      cases hnone
    · obtain ⟨a, ha, b, hb, ⟨hdisc, rfl⟩ | ⟨-, rfl⟩⟩ := mem_indexFraction.mp hx
      · refine ⟨Decidable.byContradiction fun hnumber => ?_, Option.isSome_of_mem ha, Option.isSome_of_mem hb, hdisc⟩
        obtain ⟨hplus, hfinite⟩ := plus_ofNat (natDiff a b)
        have hspan := (DistanceWeights.indexSpan_of_accepted h).resolve_left hnumber
        exact absurd hnone (Bool.eq_false_iff.mp (plus_div hplus hfinite hspan).isNaN)
      · rw [isNaN_of_inUnit inUnit_one] at hnone
        cases hnone
    · rw [isNaN_of_inUnit (inUnit_lengthFraction h a b)] at hnone
      cases hnone
    · rw [isNaN_textDistance (htexts a (.tail _ (.tail _ (List.mem_append_left _ (Option.mem_toList.mpr ha)))))
        (htexts b (.tail _ (.tail _ (List.mem_append_right _ (Option.mem_toList.mpr hb)))))] at hnone
      cases hnone
  · rintro ⟨hnone, hlocal, hcandidate, hdisc⟩
    obtain ⟨a, ha⟩ := Option.isSome_iff_exists.mp hlocal
    obtain ⟨b, hb⟩ := Option.isSome_iff_exists.mp hcandidate
    exact ⟨_, mem_trackFractions.mpr (.inr (.inl ⟨_, mem_indexFraction.mpr ⟨a, ha, b, hb, .inl ⟨hdisc, rfl⟩⟩, rfl⟩)),
      isNaN_div (.inr hnone)⟩

/-- Tracks that agree have no distance. -/
theorem trackDistance_agrees (h : w.Usable) (hspan : NumbersCompared t c → (Scalar.zero : Float) < w.trackIndexSpan)
    (hagrees : t.Agrees w variousArtists c) : trackDistance w variousArtists t c = Scalar.zero := by
  rw [trackDistance_eq]
  refine value_zero (weighted_trackFractions h) fun f hf => ?_
  obtain rfl | ⟨x, hx, rfl⟩ | ⟨a, ha, b, hb, rfl⟩ | ⟨hvarious, a, ha, b, hb, rfl⟩ := mem_trackFractions.mp hf <;> dsimp only
  · exact textDistance_eq_zero hagrees.title
  · obtain ⟨a, ha, b, hb, hx⟩ := mem_indexFraction.mp hx
    obtain ⟨rfl, hdisc⟩ := hagrees.number a ha b hb
    obtain ⟨-, rfl⟩ := hx.resolve_right fun h => h.1 hdisc
    have hsame : natDiff a a = 0 := by simp [natDiff]
    rw [hsame]
    exact zero_div (hspan ⟨Option.isSome_of_mem ha, Option.isSome_of_mem hb, hdisc⟩)
  · exact if_pos (hagrees.length a ha b hb)
  · exact textDistance_eq_zero (hagrees.artist hvarious a ha b hb)

/-- Accepted settings keep the fraction of lengths from zero to one, and the distance of tracks as well unless numbers
are compared over a span that is no number or both sums of the mean are infinite; the distance is then no number. -/
theorem trackDistance_inUnit_iff {m : MatchConfig Float} (haccepted : m.fault? = none) (variousArtists : Bool)
    {t : Track} {c : CandidateTrack} (htexts : ∀ s ∈ comparedTexts t c, (Text.normalize s).length < 2 ^ 64) :
    let w := m.weights
    let mean := WeightedMean.of (trackFractions w variousArtists t c)
    let spanless := w.trackIndexSpan.isNaN = true ∧ NumbersCompared t c
    let overflows := mean.total.isFinite = false ∧ mean.weight.isFinite = false
    (∀ a b, inUnit (lengthFraction w a b) = true) ∧
      (inUnit (trackDistance w variousArtists t c) = true ↔
        mean.weight ≤ (Scalar.zero : Float) ∨ ¬ spanless ∧ ¬ overflows) ∧
      (inUnit (trackDistance w variousArtists t c) = false ↔ (trackDistance w variousArtists t c).isNaN = true) ∧
      (t.Agrees w variousArtists c → ¬ spanless → trackDistance w variousArtists t c = Scalar.zero) := by
  intro w mean spanless overflows
  have hweights : w.fault? = none := MatchConfig.weights_of_accepted haccepted
  have husable := DistanceWeights.usable_of_accepted hweights
  have hspanless : (∃ f ∈ trackFractions w variousArtists t c, f.2.isNaN = true) ↔ spanless :=
    isNaN_trackFractions hweights htexts
  have hweight : Plus mean.weight.toModel.unpack := plus_weight (weighted_trackFractions husable)
  have htotal : mean.total.isNaN = true ∧ spanless ∨ Plus mean.total.toModel.unpack ∧ ¬ spanless := by
    by_cases h : spanless
    · exact .inl ⟨isNaN_total (hspanless.mpr h), h⟩
    · refine .inr ⟨plus_total (weighted_trackFractions husable) fun f hf => ?_, h⟩
      exact Bool.eq_false_iff.mpr fun hnone => h (hspanless.mp ⟨f, hf, hnone⟩)
  have hnone : mean.total.isNaN = true ↔ spanless := by
    obtain ⟨hnone, h⟩ | ⟨hplus, h⟩ := htotal
    · exact iff_of_true hnone h
    · exact iff_of_false (by rw [show mean.total.isNaN = false from hplus.isNaN]; exact Bool.false_ne_true) h
  have hvalue : trackDistance w variousArtists t c = mean.value := trackDistance_eq _ _ _ _
  have hrange : inUnit mean.value = true ↔ ¬ mean.value.isNaN = true :=
    ⟨fun h => Bool.eq_false_iff.mp (isNaN_of_inUnit h), fun h => inUnit_value (Bool.eq_false_iff.mpr h)⟩
  refine ⟨inUnit_lengthFraction hweights, ?_, ?_, fun hagrees hspan => trackDistance_agrees husable ?_ hagrees⟩
  · rw [hvalue, hrange, isNaN_value_iff hweight (htotal.imp And.left And.left), hnone, le_zero_iff hweight, not_and_or,
      not_or]
  · rw [hvalue, Bool.eq_false_iff, ne_eq, hrange, not_not]
  · intro hcompared
    exact (DistanceWeights.indexSpan_of_accepted hweights).resolve_left fun hnumber => hspan ⟨hnumber, hcompared⟩

/-- Equal up to case, with lengths five seconds apart. -/
theorem trackDistance_inUnit_iff_standard :
    let t : Track := { path := ⟨"in/a.flac"⟩, title := some "A b", trackNumber := some 2, length := some 200000 }
    let c : CandidateTrack := { title := "a B", trackNumber := some 2, medium := some 1, length := some 205000 }
    let w := MatchConfig.standard.weights
    MatchConfig.standard.fault? = none ∧ (∀ s ∈ comparedTexts t c, (Text.normalize s).length < 2 ^ 64) ∧
      inUnit (trackDistance w true t c) = true ∧ trackDistance w true t c = Scalar.zero := by
  intro t c w
  have haccepted : MatchConfig.standard.fault? = none := Option.isNone_iff_eq_none.mp (by decide +kernel)
  have htexts : ∀ s ∈ comparedTexts t c, (Text.normalize s).length < 2 ^ 64 := by decide +kernel
  have hnumber : w.trackIndexSpan.isNaN = false := by decide +kernel
  have hspan : ¬ (w.trackIndexSpan.isNaN = true ∧ NumbersCompared t c) := fun h => Bool.eq_false_iff.mp hnumber h.1
  have hagrees : t.Agrees w true c :=
    ⟨by decide +kernel, by rintro a ⟨⟩ b ⟨⟩; exact ⟨rfl, nofun⟩, by rintro a ⟨⟩ b ⟨⟩; decide +kernel, nofun⟩
  have hsums : ¬ ((WeightedMean.of (trackFractions w true t c)).total.isFinite = false ∧
      (WeightedMean.of (trackFractions w true t c)).weight.isFinite = false) := by decide +kernel
  obtain ⟨-, hrange, -, hzero⟩ := trackDistance_inUnit_iff haccepted true htexts
  exact ⟨haccepted, htexts, hrange.mpr (.inr ⟨hspan, hsums⟩), hzero hagrees hspan⟩

/-- Accepted settings by which equal tracks have a distance that is no number, and others by which different tracks
have such a distance: a span that is no number, and weights with an infinite sum. -/
theorem accepted_trackDistance_isNaN :
    let spanless : MatchConfig Float := { MatchConfig.standard with
      weights := { DistanceWeights.standard with trackIndexSpan := Float.ofBits 0x7FF8000000000000 } }
    let t : Track := { path := ⟨"in/a.flac"⟩, title := some "T", trackNumber := some 1 }
    let c : CandidateTrack := { title := "T", trackNumber := some 1 }
    let heavy : MatchConfig Float := { MatchConfig.standard with
      weights := { DistanceWeights.standard with trackTitle := 1.5e308, trackLength := 1.5e308 } }
    let t' : Track := { path := ⟨"in/a.flac"⟩, title := some "T", length := some 0 }
    let c' : CandidateTrack := { title := "U", length := some 60000 }
    (spanless.fault? = none ∧ t.Agrees spanless.weights false c ∧
      (trackDistance spanless.weights false t c).isNaN = true) ∧
    heavy.fault? = none ∧ (trackDistance heavy.weights false t' c').isNaN = true := by
  intro spanless t c heavy t' c'
  have haccepted : spanless.fault?.isNone = true := by decide +kernel
  have hagrees : t.Agrees spanless.weights false c :=
    ⟨rfl, by rintro a ⟨⟩ b ⟨⟩; exact ⟨rfl, nofun⟩, nofun, nofun⟩
  have hspanless : (trackDistance spanless.weights false t c).isNaN = true := by decide +kernel
  have haccepted' : heavy.fault?.isNone = true := by decide +kernel
  have hheavy : (trackDistance heavy.weights false t' c').isNaN = true := by decide +kernel
  exact ⟨⟨Option.isNone_iff_eq_none.mp haccepted, hagrees, hspanless⟩, Option.isNone_iff_eq_none.mp haccepted', hheavy⟩

end
end MusicImport
