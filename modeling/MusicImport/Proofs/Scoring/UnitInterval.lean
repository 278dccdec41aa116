import MusicImport.Scoring.Weights
import MusicImport.Proofs.Scoring.Rounding

/-! Doubles from zero to one. What is cut to them is one of them unless it is no number, and one minus such a double
is such a double again. -/
namespace MusicImport
namespace Scoring

open Float.Model (UnpackedFloat)
open Float.Model.UnpackedFloat (Sign)

variable {x y : UnpackedFloat} {a b : Float}

theorem zero_parts : (Scalar.zero : Float).toModel.unpack = .zero .positive := rfl

theorem one_parts : (Scalar.one : Float).toModel.unpack = .finite .positive (2 ^ 52) (-52) (by decide) := rfl

theorem le_iff : a ≤ b ↔ ∃ o : Ordering, a.toModel.unpack.compare b.toModel.unpack = some o ∧ o ≠ .gt := by
  have hle : a ≤ b ↔ (a.toModel.unpack.compare b.toModel.unpack).any (·.isLE) = true :=
    ⟨fun h => of_decide_eq_true h,
      fun h => decide_eq_true (show Float.Model.le a.toModel b.toModel = true from h)⟩
  rw [hle]
  cases a.toModel.unpack.compare b.toModel.unpack with
  | none => simp
  | some o => cases o <;> simp

theorem le_iff_place (ha : AtLeastZero a.toModel.unpack) (hb : AtLeastZero b.toModel.unpack) :
    a ≤ b ↔ place a.toModel.unpack ≤ place b.toModel.unpack := by
  rw [le_iff, compare_place ha hb (stored_unpack _) (stored_unpack _)]
  simp only [Option.some_inj, exists_eq_left', ne_eq, Nat.compare_eq_gt, Nat.not_lt]

theorem zero_le_iff : (Scalar.zero : Float) ≤ a ↔ AtLeastZero a.toModel.unpack := by
  rw [le_iff, zero_parts]
  cases a.toModel.unpack with
  | notANumber => simp [UnpackedFloat.compare, AtLeastZero, Plus, IsZero]
  | zero s => simp [UnpackedFloat.compare, AtLeastZero, IsZero]
  | infinity s | finite s m e hm => cases s <;> simp [UnpackedFloat.compare, AtLeastZero, Plus, IsZero]

/-- A double with the positive sign that is not zero. -/
theorem zero_lt_iff : (Scalar.zero : Float) < a ↔ Plus a.toModel.unpack ∧ ¬ IsZero a.toModel.unpack := by
  rw [lt_iff, zero_parts]
  cases a.toModel.unpack with
  | notANumber => simp [UnpackedFloat.compare, Plus]
  | zero s => simp [UnpackedFloat.compare, IsZero]
  | infinity s | finite s m e hm => cases s <;> simp [UnpackedFloat.compare, Plus, IsZero]

theorem not_lt_zero (h : AtLeastZero a.toModel.unpack) : ¬ a < (Scalar.zero : Float) := by
  rw [lt_iff_place h (b := Scalar.zero) (.inr trivial), zero_parts]
  exact Nat.not_lt_zero _

theorem inUnit_iff : inUnit a = true ↔ (Scalar.zero : Float) ≤ a ∧ a ≤ (Scalar.one : Float) := by
  simp only [inUnit, Scalar.le, Bool.and_eq_true, decide_eq_true_eq]

theorem inUnit_zero : inUnit (Scalar.zero : Float) = true := by decide

theorem inUnit_one : inUnit (Scalar.one : Float) = true := by decide

theorem isNaN_of_inUnit (h : inUnit a = true) : a.isNaN = false :=
  (zero_le_iff.mp (inUnit_iff.mp h).1).isNaN

theorem isFinite_of_inUnit (h : inUnit a = true) : a.isFinite = true := by
  obtain ⟨hzero, hone⟩ := inUnit_iff.mp h
  have ha := zero_le_iff.mp hzero
  have hle := (le_iff_place ha (.inl (show Plus (Scalar.one : Float).toModel.unpack from rfl))).mp hone
  change a.toModel.unpack.isFinite = true
  obtain ⟨s, hs⟩ | hs | ⟨m, e, hm, hs⟩ := ha.cases
  · rw [hs]
    rfl
  · rw [hs] at hle
    exact absurd hle (by decide)
  · rw [hs]
    rfl

theorem inUnit_clamp (h : a.isNaN = false) : inUnit (Scalar.clamp a) = true := by
  simp only [Scalar.clamp, Scalar.lt, decide_eq_true_eq]
  split
  · exact inUnit_zero
  next hzero =>
  split
  · exact inUnit_one
  next hone => exact inUnit_iff.mpr ⟨le_of_not_lt h rfl hzero, le_of_not_lt rfl h hone⟩

/-- What is no number stays none. -/
theorem clamp_of_isNaN (h : a.isNaN = true) : Scalar.clamp a = a := by
  have hlt (b : Float) : ¬ a < b ∧ ¬ b < a := by
    rw [lt_iff, lt_iff, isNaN_iff.mp h]
    constructor
    · cases b.toModel.unpack <;> nofun
    · cases b.toModel.unpack <;> nofun
  simp only [Scalar.clamp, Scalar.lt, decide_eq_true_eq, if_neg (hlt _).1, if_neg (hlt _).2]

theorem isNaN_clamp (a : Float) : (Scalar.clamp a).isNaN = a.isNaN := by
  cases h : a.isNaN with
  | true => rw [clamp_of_isNaN h, h]
  | false => exact isNaN_of_inUnit (inUnit_clamp h)

theorem inUnit_unit (a : Float) : inUnit (Scalar.unit a) = true := by
  unfold Scalar.unit
  split
  · exact inUnit_one
  next h => exact inUnit_clamp (Bool.eq_false_iff.mpr h)

/-- The smaller one of what is at least zero and of one; one if there is nothing to compare with. -/
theorem inUnit_min_one (h : a.isNaN = true ∨ AtLeastZero a.toModel.unpack) :
    inUnit (Scalar.min a Scalar.one) = true := by
  unfold Scalar.min
  split
  · exact inUnit_one
  next hnumber =>
  have hzero : AtLeastZero a.toModel.unpack := h.resolve_left hnumber
  rw [if_neg (by decide)]
  simp only [Scalar.lt, decide_eq_true_eq]
  split
  · exact inUnit_one
  next hle => exact inUnit_iff.mpr ⟨zero_le_iff.mpr hzero, le_of_not_lt rfl hzero.isNaN hle⟩

/-- One minus a positive number that is not larger, before it is rounded: fewer units of a power of two than one has. -/
theorem one_sub_finite {m : Nat} {e : Int} {hm : 0 < m} (h : Canonical m e)
    (hle : finitePlace m e ≤ finitePlace (2 ^ 52) (-52)) :
    ∃ (n : Nat) (l : Int), l ≤ -52 ∧ n < 2 ^ (-l).toNat ∧
      UnpackedFloat.sub .binary64 (.finite .positive (2 ^ 52) (-52) (by decide)) (.finite .positive m e hm) =
        UnpackedFloat.normalize .binary64 n l .positive := by
  obtain ⟨l, hl⟩ : ∃ l, l = min (-52) e := ⟨_, rfl⟩
  have hleast : l ≤ -52 := hl ▸ Int.min_le_left _ _
  have hleft := decreaseExponent_le h ⟨by decide, by decide, by decide, .inl (by decide)⟩ hle
  rw [Int.min_comm, ← hl] at hleft
  have hwhole : (UnpackedFloat.decreaseExponent (2 ^ 52) (-52) l).1 = 2 ^ (-l).toNat := by
    have hbits : (-l).toNat = 52 + (-52 - l).toNat := by omega
    simp only [UnpackedFloat.decreaseExponent, Nat.shiftLeft_eq, hbits, Nat.pow_add]
  have htaken : 0 < (UnpackedFloat.decreaseExponent m e l).1 := by
    simp only [UnpackedFloat.decreaseExponent, Nat.shiftLeft_eq]
    exact Nat.mul_pos hm (Nat.two_pow_pos _)
  obtain ⟨taken, htaken'⟩ : ∃ taken, taken = (UnpackedFloat.decreaseExponent m e l).1 := ⟨_, rfl⟩
  rw [← htaken'] at hleft htaken
  rw [hwhole] at hleft
  refine ⟨2 ^ (-l).toNat - taken, l, hleast, Nat.sub_lt (Nat.two_pow_pos _) htaken, ?_⟩
  simp only [UnpackedFloat.sub, ← hl, hwhole, ← htaken', Sign.apply, Int.ofNat_sub hleft]

/-- Rounded, it is not above one. -/
theorem place_one_sub_finite {m : Nat} {e : Int} {hm : 0 < m} (h : Canonical m e)
    (hle : finitePlace m e ≤ finitePlace (2 ^ 52) (-52)) :
    place (UnpackedFloat.unpack .binary64 (UnpackedFloat.pack .binary64 (UnpackedFloat.sub .binary64
      (.finite .positive (2 ^ 52) (-52) (by decide)) (.finite .positive m e hm)))) ≤ finitePlace (2 ^ 52) (-52) := by
  obtain ⟨n, l, hleast, hless, hopened⟩ := @one_sub_finite m e hm h hle
  rw [hopened]
  obtain rfl | hsome := Nat.eq_zero_or_pos n
  · change place (UnpackedFloat.unpack .binary64 (UnpackedFloat.pack .binary64 (.zero .positive))) ≤ _
    rw [unpack_pack_zero]
    exact Nat.zero_le _
  · have hlog : n.log2 < (-l).toNat := (Nat.log2_lt (Nat.ne_of_gt hsome)).mpr hless
    have htarget : target n l ≤ -53 := by
      unfold target
      omega
    rw [UnpackedFloat.normalize, Int.compare_eq_gt.mpr (Int.natCast_pos.mpr hsome)]
    have hplace := place_round_le .positive hsome htarget (by decide)
    exact hplace

theorem inUnit_one_sub (h : inUnit a = true) : inUnit (Scalar.one - a) = true := by
  obtain ⟨hzero, hone⟩ := inUnit_iff.mp h
  have hplus : Plus (Scalar.one : Float).toModel.unpack := rfl
  have hstored : Stored a.toModel.unpack := stored_unpack _
  have ha := zero_le_iff.mp hzero
  have hle := (le_iff_place ha (.inl hplus)).mp hone
  have hfinite : a.toModel.unpack.isFinite = true := isFinite_of_inUnit h
  have hdifference : Plus (Scalar.one - a).toModel.unpack :=
    (plus_sub hplus ha hfinite (stored_unpack _) hstored hle).pack
  refine inUnit_iff.mpr ⟨zero_le_iff.mpr (.inl hdifference), (le_iff_place (.inl hdifference) (.inl hplus)).mpr ?_⟩
  rw [sub_parts, one_parts]
  obtain ⟨s, hs⟩ | hs | ⟨m, e, hm, hs⟩ := ha.cases
  · rw [hs]
    cases s <;> exact Nat.le_refl _
  · rw [hs] at hfinite
    cases hfinite
  · rw [hs, one_parts] at hle
    rw [hs] at hstored ⊢
    exact place_one_sub_finite hstored hle

end Scoring
end MusicImport
