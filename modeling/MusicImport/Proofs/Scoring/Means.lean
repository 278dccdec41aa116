import MusicImport.Scoring.AlbumDistance
import MusicImport.Proofs.Scoring.Contributions

/-! Means of fractions with their weights, in doubles. A mean is from zero to one unless one of its fractions is no
number or both of its sums grow beyond all finite doubles, and the mean of zeros is zero. -/
namespace MusicImport

section
variable {α : Type} [Scalar α]

/-- The mean of fractions with their weights. -/
def WeightedMean.of (fractions : List (α × α)) : WeightedMean α :=
  fractions.foldl (fun m f => m.add f.1 f.2) .empty

theorem WeightedMean.addSome_eq (m : WeightedMean α) (weight : α) (fraction : Option α) :
    m.addSome weight fraction = (fraction.map (weight, ·)).toList.foldl (fun m f => m.add f.1 f.2) m := by
  cases fraction <;> rfl

end

namespace Scoring

open Float.Model (UnpackedFloat)

variable {x y : UnpackedFloat} {a b : Float}

theorem add_notANumber (h : x = .notANumber ∨ y = .notANumber) :
    UnpackedFloat.add .binary64 x y = .notANumber := by
  obtain rfl | rfl := h
  · rfl
  · cases x <;> rfl

theorem mul_notANumber (x : UnpackedFloat) : UnpackedFloat.mul .binary64 x .notANumber = .notANumber := by
  cases x <;> rfl

theorem div_notANumber (h : x = .notANumber ∨ y = .notANumber) :
    UnpackedFloat.div .binary64 x y = .notANumber := by
  obtain rfl | rfl := h
  · rfl
  · cases x <;> rfl

theorem notANumber_sub (x : UnpackedFloat) : UnpackedFloat.sub .binary64 .notANumber x = .notANumber := rfl

theorem isNaN_add (h : a.isNaN = true ∨ b.isNaN = true) : (a + b).isNaN = true := by
  rw [isNaN_iff, add_parts, add_notANumber (h.imp isNaN_iff.mp isNaN_iff.mp), unpack_pack_notANumber]

theorem isNaN_sub_left (h : a.isNaN = true) : (a - b).isNaN = true := by
  rw [isNaN_iff, sub_parts, isNaN_iff.mp h, notANumber_sub, unpack_pack_notANumber]

theorem isNaN_mul (h : b.isNaN = true) : (a * b).isNaN = true := by
  rw [isNaN_iff, mul_parts, isNaN_iff.mp h, mul_notANumber, unpack_pack_notANumber]

theorem isNaN_div (h : a.isNaN = true ∨ b.isNaN = true) : (a / b).isNaN = true := by
  rw [isNaN_iff, div_parts, div_notANumber (h.imp isNaN_iff.mp isNaN_iff.mp), unpack_pack_notANumber]

theorem isNaN_of_isFinite (h : a.isFinite = true) : a.isNaN = false := by
  have hfinite : a.toModel.unpack.isFinite = true := h
  change a.toModel.unpack.isNaN = false
  cases ha : a.toModel.unpack with
  | notANumber =>
    rw [ha] at hfinite
    cases hfinite
  | zero s | infinity s | finite s m e hm => rfl

/-- A number taken from a finite one is a number. -/
theorem isNaN_finite_sub (ha : a.isFinite = true) (hb : b.isNaN = false) : (a - b).isNaN = false := by
  have hfinite : a.toModel.unpack.isFinite = true := ha
  have hnumber : b.toModel.unpack.isNaN = false := hb
  change (a - b).toModel.unpack.isNaN = false
  rw [sub_parts]
  refine isNaN_pack ?_
  by_cases hinfinite : ∃ s, b.toModel.unpack = .infinity s
  · obtain ⟨s, hs⟩ := hinfinite
    rw [hs]
    cases hparts : a.toModel.unpack with
    | notANumber | infinity s' =>
      rw [hparts] at hfinite
      cases hfinite
    | zero s' | finite s' m e hm => rfl
  · exact isNaN_sub (isNaN_of_isFinite ha) hnumber fun s hs => hinfinite ⟨s, hs⟩

theorem zero_add (h : IsZero b.toModel.unpack) : (Scalar.zero : Float) + b = Scalar.zero := by
  have hsum : (Scalar.zero : Float) + b =
    ⟨.pack (UnpackedFloat.add .binary64 (.zero .positive) b.toModel.unpack)⟩ := rfl
  obtain ⟨s, hs⟩ := h.cases
  rw [hsum, hs]
  cases s <;> rfl

theorem zero_div (h : (Scalar.zero : Float) < b) : (Scalar.zero : Float) / b = Scalar.zero := by
  have hquotient : (Scalar.zero : Float) / b =
    ⟨.pack (UnpackedFloat.div .binary64 (.zero .positive) b.toModel.unpack)⟩ := rfl
  obtain ⟨hplus, hnonzero⟩ := zero_lt_iff.mp h
  rw [hquotient]
  obtain hs | hs | ⟨m, e, hm, hs⟩ := hplus.cases
  · exact absurd (hs ▸ trivial) hnonzero
  · rw [hs]
    rfl
  · rw [hs]
    rfl

theorem lt_isZero (h : IsZero a.toModel.unpack) : Scalar.lt (Scalar.zero : Float) a = false :=
  decide_eq_false fun hlt => (zero_lt_iff.mp hlt).2 h

theorem plus_lt_zero (h : Plus a.toModel.unpack) : Scalar.lt a (Scalar.zero : Float) = false :=
  decide_eq_false (not_lt_zero (.inl h))

/-- A natural number as a double. -/
theorem plus_ofNat (n : Nat) : Plus (Scalar.ofNat n : Float).toModel.unpack ∧ (Scalar.ofNat n : Float).isFinite = true := by
  have hword : (Scalar.ofNat n : Float) = Scalar.ofNat (n % 2 ^ 64) :=
    congrArg UInt64.toFloat UInt64.ofNat_mod_size.symm
  rw [hword]
  obtain hzero | hpos := Nat.eq_zero_or_pos (n % 2 ^ 64)
  · rw [hzero]
    exact ⟨rfl, rfl⟩
  · obtain ⟨m, e, hm, hparts⟩ := ofNat_parts hpos (Nat.mod_lt _ (Nat.two_pow_pos 64))
    have hfinite : (Scalar.ofNat (n % 2 ^ 64) : Float).isFinite =
      (Scalar.ofNat (n % 2 ^ 64) : Float).toModel.unpack.isFinite := rfl
    rw [hfinite, hparts]
    exact ⟨rfl, rfl⟩

theorem isZero_mul_zero (h : a.isFinite = true) : IsZero (a * Scalar.zero).toModel.unpack :=
  (mul_isZero h (y := (Scalar.zero : Float).toModel.unpack) trivial).pack

theorem infinity_of_plus (h : Plus x) (hinfinite : x.isFinite = false) : x = .infinity .positive := by
  obtain rfl | rfl | ⟨m, e, hm, rfl⟩ := h.cases
  · cases hinfinite
  · rfl
  · cases hinfinite

/-- Divided by a double above zero, a number with the positive sign stays one, unless both are infinite. -/
theorem isNaN_div_iff (ha : Plus a.toModel.unpack) (hb : (Scalar.zero : Float) < b) :
    (a / b).isNaN = true ↔ a.isFinite = false ∧ b.isFinite = false := by
  obtain ⟨hplus, hnonzero⟩ := zero_lt_iff.mp hb
  constructor
  · intro hnone
    obtain hquotient | ⟨-, ⟨-, hzero⟩ | ⟨hinfinite, hinfinite'⟩⟩ := ha.div hplus
    · exact absurd hnone (Bool.eq_false_iff.mp hquotient.pack.isNaN)
    · exact absurd (hzero ▸ trivial) hnonzero
    · exact ⟨congrArg UnpackedFloat.isFinite hinfinite, congrArg UnpackedFloat.isFinite hinfinite'⟩
  · rintro ⟨hinfinite, hinfinite'⟩
    rw [isNaN_iff, div_parts, infinity_of_plus ha hinfinite, infinity_of_plus hplus hinfinite']
    rfl

theorem plus_div (ha : Plus a.toModel.unpack) (hfinite : a.isFinite = true) (hb : (Scalar.zero : Float) < b) :
    Plus (a / b).toModel.unpack := by
  refine (plus_div_or_isNaN ha (zero_lt_iff.mp hb).1).resolve_right fun hnone => ?_
  exact Bool.eq_false_iff.mp ((isNaN_div_iff ha hb).mp hnone).1 hfinite

theorem atLeastZero_of_lt (ha : AtLeastZero a.toModel.unpack) (h : a < b) : AtLeastZero b.toModel.unpack := by
  rw [lt_iff] at h
  have hbelow : ∀ y : UnpackedFloat, y = .infinity .negative ∨ (∃ m e hm, y = .finite .negative m e hm) →
      a.toModel.unpack.compare y = some .gt := by
    rintro y (rfl | ⟨m, e, hm, rfl⟩)
    · obtain ⟨s, hs⟩ | hs | ⟨m, e, hm, hs⟩ := ha.cases <;> rw [hs] <;> rfl
    · obtain ⟨s, hs⟩ | hs | ⟨m, e, hm, hs⟩ := ha.cases <;> rw [hs] <;> rfl
  cases hb : b.toModel.unpack with
  | notANumber =>
    have hnone : a.toModel.unpack.compare .notANumber = none := by cases a.toModel.unpack <;> rfl
    rw [hb, hnone] at h
    cases h
  | zero s => exact .inr trivial
  | infinity s =>
    cases s with
    | positive => exact .inl rfl
    | negative => cases (hbelow _ (.inl hb)).symm.trans h
  | finite s m e hm =>
    cases s with
    | positive => exact .inl rfl
    | negative => cases (hbelow _ (.inr ⟨m, e, hm, hb⟩)).symm.trans h

theorem le_zero_iff (h : Plus a.toModel.unpack) : a ≤ (Scalar.zero : Float) ↔ ¬ (Scalar.zero : Float) < a := by
  have hzero : AtLeastZero (Scalar.zero : Float).toModel.unpack := .inl rfl
  rw [le_iff_place (.inl h) hzero, lt_iff_place hzero (.inl h), Nat.not_lt]

theorem lt_of_not_le_zero (h : Plus a.toModel.unpack) (hle : ¬ a ≤ (Scalar.zero : Float)) : (Scalar.zero : Float) < a :=
  Decidable.byContradiction fun hlt => hle ((le_zero_iff h).mpr hlt)

theorem isNaN_foldl {values : List Float} (h : a.isNaN = true ∨ ∃ v ∈ values, v.isNaN = true) :
    (values.foldl (· + ·) a).isNaN = true := by
  induction values generalizing a with
  | nil => exact h.resolve_right nofun
  | cons v values ih =>
    apply ih
    obtain ha | ⟨v', hv', hnone⟩ := h
    · exact .inl (isNaN_add (.inl ha))
    · obtain rfl | hv' := List.mem_cons.mp hv'
      · exact .inl (isNaN_add (.inr hnone))
      · exact .inr ⟨v', hv', hnone⟩

theorem zero_foldl {values : List Float} (h : ∀ v ∈ values, IsZero v.toModel.unpack) :
    values.foldl (· + ·) (Scalar.zero : Float) = Scalar.zero := by
  induction values with
  | nil => rfl
  | cons v values ih =>
    rw [List.foldl_cons, zero_add (h v (.head _))]
    exact ih fun v' hv' => h v' (.tail _ hv')

theorem value_eq (m : WeightedMean Float) :
    m.value = if m.weight ≤ (Scalar.zero : Float) then Scalar.zero else Scalar.clamp (m.total / m.weight) := by
  unfold WeightedMean.value
  simp only [Scalar.le, decide_eq_true_eq]

/-- A mean is from zero to one as far as it is a number. -/
theorem inUnit_value {m : WeightedMean Float} (h : m.value.isNaN = false) : inUnit m.value = true := by
  rw [value_eq] at h ⊢
  split
  · exact inUnit_zero
  next hle =>
  rw [if_neg hle, isNaN_clamp] at h
  exact inUnit_clamp h

/-- A mean is no number where the sum of its fractions is none, or where both sums are infinite. Without weights it is
zero. -/
theorem isNaN_value_iff {m : WeightedMean Float} (hweight : Plus m.weight.toModel.unpack)
    (htotal : m.total.isNaN = true ∨ Plus m.total.toModel.unpack) : m.value.isNaN = true ↔
      (Scalar.zero : Float) < m.weight ∧
        (m.total.isNaN = true ∨ m.total.isFinite = false ∧ m.weight.isFinite = false) := by
  rw [value_eq]
  by_cases hpositive : (Scalar.zero : Float) < m.weight
  · rw [if_neg fun hle => (le_zero_iff hweight).mp hle hpositive, isNaN_clamp, and_iff_right hpositive]
    obtain hnone | hplus := htotal
    · exact iff_of_true (isNaN_div (.inl hnone)) (.inl hnone)
    · rw [isNaN_div_iff hplus hpositive]
      exact (or_iff_right (Bool.eq_false_iff.mp hplus.isNaN)).symm
  · rw [if_pos ((le_zero_iff hweight).mpr hpositive)]
    exact iff_of_false (Bool.eq_false_iff.mp (isNaN_of_inUnit inUnit_zero)) fun h => hpositive h.1

/-- Weights that can be multiplied with fractions and summed. -/
def Weighted (fractions : List (Float × Float)) : Prop :=
  ∀ f ∈ fractions, AtLeastZero f.1.toModel.unpack ∧ f.1.isFinite = true

theorem mean_eq (fractions : List (Float × Float)) : WeightedMean.of fractions =
    ⟨(fractions.map fun f => f.1 * Scalar.clamp f.2).foldl (· + ·) Scalar.zero,
      (fractions.map (·.1)).foldl (· + ·) Scalar.zero⟩ := by
  have hadded (m : WeightedMean Float) : fractions.foldl (fun m f => m.add f.1 f.2) m =
      ⟨(fractions.map fun f => f.1 * Scalar.clamp f.2).foldl (· + ·) m.total,
        (fractions.map (·.1)).foldl (· + ·) m.weight⟩ := by
    induction fractions generalizing m with
    | nil => rfl
    | cons f fractions ih =>
      rw [List.foldl_cons, ih]
      rfl
  exact hadded .empty

theorem plus_weight {fractions : List (Float × Float)} (h : Weighted fractions) :
    Plus (WeightedMean.of fractions).weight.toModel.unpack := by
  rw [mean_eq]
  refine plus_foldl rfl fun v hv => ?_
  obtain ⟨f, hf, rfl⟩ := List.mem_map.mp hv
  exact (h f hf).1

theorem plus_total {fractions : List (Float × Float)} (h : Weighted fractions)
    (hnumbers : ∀ f ∈ fractions, f.2.isNaN = false) : Plus (WeightedMean.of fractions).total.toModel.unpack := by
  rw [mean_eq]
  refine plus_foldl rfl fun v hv => ?_
  obtain ⟨f, hf, rfl⟩ := List.mem_map.mp hv
  have hcut := inUnit_clamp (hnumbers f hf)
  exact ((h f hf).1.mul (zero_le_iff.mp (inUnit_iff.mp hcut).1) (h f hf).2 (isFinite_of_inUnit hcut)).pack

theorem isNaN_total {fractions : List (Float × Float)} (h : ∃ f ∈ fractions, f.2.isNaN = true) :
    (WeightedMean.of fractions).total.isNaN = true := by
  obtain ⟨f, hf, hnone⟩ := h
  rw [mean_eq]
  refine isNaN_foldl (.inr ⟨_, List.mem_map.mpr ⟨f, hf, rfl⟩, isNaN_mul ?_⟩)
  rwa [clamp_of_isNaN hnone]

/-- The mean of zeros is zero. -/
theorem value_zero {fractions : List (Float × Float)} (h : Weighted fractions)
    (hzero : ∀ f ∈ fractions, f.2 = Scalar.zero) : (WeightedMean.of fractions).value = Scalar.zero := by
  have htotal : (WeightedMean.of fractions).total = Scalar.zero := by
    rw [mean_eq]
    refine zero_foldl fun v hv => ?_
    obtain ⟨f, hf, rfl⟩ := List.mem_map.mp hv
    have hcut : Scalar.clamp f.2 = (Scalar.zero : Float) := by
      rw [hzero f hf]
      decide
    rw [hcut]
    exact isZero_mul_zero (h f hf).2
  rw [value_eq, htotal]
  split
  · rfl
  next hle =>
  rw [zero_div (lt_of_not_le_zero (plus_weight h) hle)]
  decide

end Scoring
end MusicImport
