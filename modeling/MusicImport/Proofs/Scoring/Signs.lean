import Mathlib
import MusicImport.Proofs.Scoring.Similarity

/-! Signs of doubles. What is added up from zero on, from numbers that are not below zero, stays a number with
the positive sign, and so do products and quotients of such numbers as far as they are numbers at all. -/
namespace MusicImport
namespace Scoring

open Float.Model (Format UnpackedFloat)
open Float.Model.UnpackedFloat (Sign Accuracy packComponents)

/-- A number with the positive sign. -/
def Plus : UnpackedFloat → Prop
  | .notANumber => False
  | .zero s => s = .positive
  | .infinity s => s = .positive
  | .finite s _ _ _ => s = .positive

/-- A zero of either sign. -/
def IsZero : UnpackedFloat → Prop
  | .zero _ => True
  | _ => False

/-- A number that is not below zero; the negative zero is one. -/
def AtLeastZero (x : UnpackedFloat) : Prop := Plus x ∨ IsZero x

variable {spec : Format} {x y : UnpackedFloat} {a b : Float}

theorem Plus.cases (h : Plus x) :
    x = .zero .positive ∨ x = .infinity .positive ∨ ∃ m e hm, x = .finite .positive m e hm := by
  cases x with
  | notANumber => cases h
  | zero s =>
    obtain rfl : s = .positive := h
    exact .inl rfl
  | infinity s =>
    obtain rfl : s = .positive := h
    exact .inr (.inl rfl)
  | finite s m e hm =>
    obtain rfl : s = .positive := h
    exact .inr (.inr ⟨m, e, hm, rfl⟩)

theorem IsZero.cases (h : IsZero x) : ∃ s, x = .zero s := by
  cases x with
  | zero s => exact ⟨s, rfl⟩
  | notANumber | infinity s | finite s m e hm => cases h

theorem AtLeastZero.cases (h : AtLeastZero x) :
    (∃ s, x = .zero s) ∨ x = .infinity .positive ∨ ∃ m e hm, x = .finite .positive m e hm := by
  obtain h | h := h
  · exact h.cases.imp_left fun hzero => ⟨_, hzero⟩
  · exact .inl h.cases

theorem Plus.isNaN (h : Plus x) : x.isNaN = false := by
  obtain rfl | rfl | ⟨m, e, hm, rfl⟩ := h.cases <;> rfl

theorem AtLeastZero.isNaN (h : AtLeastZero x) : x.isNaN = false := by
  obtain h | h := h
  · exact h.isNaN
  · obtain ⟨s, rfl⟩ := h.cases
    rfl

/-- What is put together with the positive sign has it. -/
theorem plus_packComponents (e : BitVec 11) (m : BitVec 52) :
    UnpackedFloat.unpack .binary64 (packComponents .binary64 .positive e m) = .notANumber ∨
      Plus (UnpackedFloat.unpack .binary64 (packComponents .binary64 .positive e m)) := by
  unfold UnpackedFloat.unpack
  rw [UnpackedFloat.unpackSign_packComponents]
  dsimp only
  split
  · split
    · exact .inr rfl
    · exact .inl rfl
  · split
    · split
      · exact .inr rfl
      · exact .inr rfl
    · exact .inr rfl

theorem Plus.pack (h : Plus x) : Plus (UnpackedFloat.unpack .binary64 (UnpackedFloat.pack .binary64 x)) := by
  have hnumber := @isNaN_pack .binary64 x h.isNaN
  have hpositive : ∃ e m, UnpackedFloat.pack .binary64 x = packComponents .binary64 .positive e m := by
    obtain rfl | rfl | ⟨m, e, hm, rfl⟩ := h.cases
    · exact ⟨_, _, rfl⟩
    · exact ⟨_, _, rfl⟩
    · unfold UnpackedFloat.pack
      dsimp only
      split
      · exact ⟨_, _, rfl⟩
      · split
        · exact ⟨_, _, rfl⟩
        · exact ⟨_, _, rfl⟩
  obtain ⟨e, m, hpack⟩ := hpositive
  rw [hpack] at hnumber ⊢
  obtain hnone | hplus := plus_packComponents e m
  · rw [hnone] at hnumber
    cases hnumber
  · exact hplus

theorem unpack_pack_zero (s : Sign) :
    UnpackedFloat.unpack .binary64 (UnpackedFloat.pack .binary64 (.zero s)) = .zero s := by
  cases s <;> rfl

theorem IsZero.pack (h : IsZero x) :
    IsZero (UnpackedFloat.unpack .binary64 (UnpackedFloat.pack .binary64 x)) := by
  obtain ⟨s, rfl⟩ := h.cases
  rw [unpack_pack_zero]
  trivial

theorem AtLeastZero.pack (h : AtLeastZero x) :
    AtLeastZero (UnpackedFloat.unpack .binary64 (UnpackedFloat.pack .binary64 x)) :=
  h.imp Plus.pack IsZero.pack

theorem plus_zeroOrFinite (m : Nat) (e : Int) :
    Plus (if h : m = 0 then UnpackedFloat.zero .positive
      else UnpackedFloat.finite .positive m e (Nat.pos_of_ne_zero h)) := by
  cases m with
  | zero => rfl
  | succ n => rfl

theorem plus_roundWithAccuracy (m : Nat) (e : Int) (accuracy : Accuracy) :
    Plus (UnpackedFloat.roundWithAccuracy spec .positive m e accuracy) := by
  unfold UnpackedFloat.roundWithAccuracy
  exact plus_zeroOrFinite _ _

theorem plus_normalize {mantissa : Int} (h : 0 ≤ mantissa) (e : Int) :
    Plus (UnpackedFloat.normalize spec mantissa e .positive) := by
  unfold UnpackedFloat.normalize
  split
  next hlt => exact absurd (Int.compare_eq_lt.mp hlt) (Int.not_lt.mpr h)
  · rfl
  · exact plus_roundWithAccuracy _ _ _

theorem Plus.add (hx : Plus x) (hy : AtLeastZero y) : Plus (UnpackedFloat.add spec x y) := by
  obtain hy | hy := hy
  · obtain rfl | rfl | ⟨m, e, hm, rfl⟩ := hx.cases
    · obtain rfl | rfl | ⟨m', e', hm', rfl⟩ := hy.cases <;> rfl
    · obtain rfl | rfl | ⟨m', e', hm', rfl⟩ := hy.cases <;> rfl
    · obtain rfl | rfl | ⟨m', e', hm', rfl⟩ := hy.cases
      · rfl
      · rfl
      · exact plus_normalize (Int.add_nonneg (Int.natCast_nonneg _) (Int.natCast_nonneg _)) _
  · obtain ⟨s, rfl⟩ := hy.cases
    obtain rfl | rfl | ⟨m, e, hm, rfl⟩ := hx.cases <;> cases s <;> rfl

theorem IsZero.mul (hx : IsZero x) (hy : y.isFinite = true) : IsZero (UnpackedFloat.mul spec x y) := by
  obtain ⟨s, rfl⟩ := hx.cases
  cases y with
  | zero s' | finite s' m e hm => trivial
  | notANumber | infinity s' => cases hy

theorem mul_isZero (hx : x.isFinite = true) (hy : IsZero y) : IsZero (UnpackedFloat.mul spec x y) := by
  obtain ⟨s, rfl⟩ := hy.cases
  cases x with
  | zero s' | finite s' m e hm => trivial
  | notANumber | infinity s' => cases hx

theorem AtLeastZero.mul (hx : AtLeastZero x) (hy : AtLeastZero y) (hfinite : x.isFinite = true)
    (hfinite' : y.isFinite = true) : AtLeastZero (UnpackedFloat.mul spec x y) := by
  obtain hx | hx := hx
  · obtain hy | hy := hy
    · obtain rfl | rfl | ⟨m, e, hm, rfl⟩ := hx.cases
      · exact .inr (IsZero.mul trivial hfinite')
      · cases hfinite
      · obtain rfl | rfl | ⟨m', e', hm', rfl⟩ := hy.cases
        · exact .inr trivial
        · cases hfinite'
        · exact .inl (plus_roundWithAccuracy _ _ _)
    · exact .inr (mul_isZero hfinite hy)
  · exact .inr (hx.mul hfinite')

/-- A quotient of numbers with the positive sign has it, unless both are zero or both infinite. Then it is no number. -/
theorem Plus.div (hx : Plus x) (hy : Plus y) : Plus (UnpackedFloat.div spec x y) ∨
    UnpackedFloat.div spec x y = .notANumber ∧
      (x = .zero .positive ∧ y = .zero .positive ∨ x = .infinity .positive ∧ y = .infinity .positive) := by
  obtain rfl | rfl | ⟨m, e, hm, rfl⟩ := hx.cases
  · obtain rfl | rfl | ⟨m', e', hm', rfl⟩ := hy.cases
    · exact .inr ⟨rfl, .inl ⟨rfl, rfl⟩⟩
    · exact .inl rfl
    · exact .inl rfl
  · obtain rfl | rfl | ⟨m', e', hm', rfl⟩ := hy.cases
    · exact .inl rfl
    · exact .inr ⟨rfl, .inr ⟨rfl, rfl⟩⟩
    · exact .inl rfl
  · obtain rfl | rfl | ⟨m', e', hm', rfl⟩ := hy.cases
    · exact .inl rfl
    · exact .inl rfl
    · exact .inl (plus_roundWithAccuracy _ _ _)

theorem add_parts (a b : Float) : (a + b).toModel.unpack = UnpackedFloat.unpack .binary64
    (UnpackedFloat.pack .binary64 (UnpackedFloat.add .binary64 a.toModel.unpack b.toModel.unpack)) := rfl

theorem sub_parts (a b : Float) : (a - b).toModel.unpack = UnpackedFloat.unpack .binary64
    (UnpackedFloat.pack .binary64 (UnpackedFloat.sub .binary64 a.toModel.unpack b.toModel.unpack)) := rfl

theorem mul_parts (a b : Float) : (a * b).toModel.unpack = UnpackedFloat.unpack .binary64
    (UnpackedFloat.pack .binary64 (UnpackedFloat.mul .binary64 a.toModel.unpack b.toModel.unpack)) := rfl

theorem div_parts (a b : Float) : (a / b).toModel.unpack = UnpackedFloat.unpack .binary64
    (UnpackedFloat.pack .binary64 (UnpackedFloat.div .binary64 a.toModel.unpack b.toModel.unpack)) := rfl

theorem unpack_pack_notANumber :
    UnpackedFloat.unpack .binary64 (UnpackedFloat.pack .binary64 .notANumber) = .notANumber := rfl

theorem isNaN_iff : a.isNaN = true ↔ a.toModel.unpack = .notANumber := UnpackedFloat.isNaN_iff

theorem plus_div_or_isNaN (ha : Plus a.toModel.unpack) (hb : Plus b.toModel.unpack) :
    Plus (a / b).toModel.unpack ∨ (a / b).isNaN = true := by
  obtain hplus | ⟨hnone, -⟩ := ha.div hb
  · exact .inl hplus.pack
  · exact .inr (isNaN_iff.mpr (by rw [div_parts, hnone, unpack_pack_notANumber]))

end Scoring
end MusicImport
