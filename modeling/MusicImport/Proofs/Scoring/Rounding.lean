import MusicImport.Proofs.Scoring.Places

/-! What rounding makes of a number. The mantissa is cut to its leading bits, or to those of the least exponent, and
may be one larger; where that takes one bit more, the exponent rises instead. So what is less than one does not
become more than one, and a number that is large enough does not become zero. -/
namespace MusicImport
namespace Scoring

open Float.Model (Format UnpackedFloat totalExponent)
open Float.Model.UnpackedFloat (Sign Accuracy ExtendedMantissa packComponents)

variable {s : Sign} {m : Nat} {e : Int}

theorem log2_eq (h : 2 ^ 52 ≤ m) (h' : m < 2 ^ 53) : m.log2 = 52 :=
  (Nat.log2_eq_iff (by omega)).mpr ⟨h, h'⟩

theorem finitePlace_injective {m m' : Nat} {e e' : Int} (h : Canonical m e) (h' : Canonical m' e')
    (heq : finitePlace m e = finitePlace m' e') : m = m' ∧ e = e' := by
  obtain hlt | rfl | hgt := Int.lt_trichotomy e e'
  · exact absurd heq (Nat.ne_of_lt (finitePlace_lt h h' hlt))
  · exact ⟨Nat.add_left_cancel heq, rfl⟩
  · exact absurd heq (Nat.ne_of_gt (finitePlace_lt h' h hgt))

/-- What is put together from the parts of a place stands for the number in that place. -/
theorem unpack_packComponents {exponent : BitVec 11} {mantissa : BitVec 52} {hm : 0 < m} (h : Canonical m e)
    (hplace : exponent.toNat * 2 ^ 52 + mantissa.toNat = finitePlace m e) :
    UnpackedFloat.unpack .binary64 (packComponents .binary64 s exponent mantissa) = .finite s m e hm := by
  have hless := finitePlace_lt_infinity h
  have hpositive := finitePlace_pos (e := e) hm
  have hsign := @UnpackedFloat.unpackSign_packComponents .binary64 s exponent mantissa
  have hexponent : exponent.toNat = (packComponents .binary64 s exponent mantissa).toNat / 2 ^ 52 % 2 ^ 11 := by
    rw [← toNat_unpackExponent]
    exact congrArg BitVec.toNat (@UnpackedFloat.unpackExponent_packComponents .binary64 _ _ _).symm
  have hmantissa : mantissa.toNat = (packComponents .binary64 s exponent mantissa).toNat % 2 ^ 52 := by
    rw [← toNat_unpackMantissa]
    exact congrArg BitVec.toNat (@UnpackedFloat.unpackMantissa_packComponents .binary64 _ _ _).symm
  have hnumber : (UnpackedFloat.unpack .binary64 (packComponents .binary64 s exponent mantissa)).isNaN = false := by
    refine @isNaN_packComponents .binary64 s _ (fun hall => ?_) mantissa
    rw [hall] at hplace
    change 2047 * 2 ^ 52 + _ = _ at hplace
    omega
  obtain hnone | ⟨hinfinite, hall, -⟩ | ⟨hzero, hnil, hnil'⟩ | ⟨m', e', hm', hfinite, hcanonical, hplace'⟩ :=
    unpack_word (packComponents .binary64 s exponent mantissa)
  · rw [hnone] at hnumber
    cases hnumber
  · omega
  · omega
  · rw [← hexponent, ← hmantissa, hplace] at hplace'
    obtain ⟨rfl, rfl⟩ := finitePlace_injective h hcanonical hplace'
    rw [hfinite, hsign, Sign.ofBitVec_toBitVec]

theorem unpack_pack_finite {hm : 0 < m} (h : Canonical m e) :
    UnpackedFloat.unpack .binary64 (UnpackedFloat.pack .binary64 (.finite s m e hm)) = .finite s m e hm := by
  obtain ⟨hleast, hgreatest, hbits, hleading⟩ := h
  have hbiased : (e + Format.binary64.exponentBias + Format.binary64.mantissaBitsWithoutImplicit).toNat =
      (e + 1075).toNat := by
    change (e + 1023 + 52).toNat = _
    omega
  have hrange : ¬ 2 ^ Format.binary64.exponentBits ≤ (e + 1075).toNat + 1 := by
    change ¬ 2 ^ 11 ≤ _
    omega
  have hfull : Format.binary64.mantissaBits = 53 := rfl
  unfold UnpackedFloat.pack
  dsimp only
  rw [hbiased, if_neg hrange, hfull]
  by_cases hnormal : 2 ^ 52 ≤ m
  · rw [if_pos (by rw [log2_eq hnormal hbits])]
    apply unpack_packComponents ⟨hleast, hgreatest, hbits, hleading⟩
    rw [BitVec.toNat_ofNat, BitVec.toNat_ofNat, finitePlace]
    omega
  · have hfew : m.log2 < 52 := (Nat.log2_lt (by omega)).mpr (by omega)
    rw [if_neg (by omega)]
    apply unpack_packComponents ⟨hleast, hgreatest, hbits, hleading⟩
    obtain rfl := hleading.resolve_left hnormal
    rw [BitVec.toNat_ofNat, BitVec.toNat_ofNat, finitePlace]
    omega

theorem shiftRight_mantissa (em : ExtendedMantissa) (n : Nat) : (em >>> n).mantissa = em.mantissa / 2 ^ n := by
  change (n.repeat ExtendedMantissa.shiftRightOne em).mantissa = _
  induction n with
  | zero => simp [Nat.repeat]
  | succ n ih =>
    rw [Nat.repeat, ExtendedMantissa.shiftRightOne, ih, Nat.pow_succ, Nat.div_div_eq_div_mul]

theorem roundedMantissa_bounds (em : ExtendedMantissa) :
    em.mantissa ≤ em.roundedMantissa ∧ em.roundedMantissa ≤ em.mantissa + 1 := by
  obtain ⟨mantissa, roundBit, stickyBit⟩ := em
  unfold ExtendedMantissa.roundedMantissa ExtendedMantissa.accuracy
  cases roundBit with
  | false => cases stickyBit <;> simp [Accuracy.roundToNearestEven]
  | true =>
    cases stickyBit with
    | false =>
      -- a tie goes to the even one of the two
      simp only [Accuracy.roundToNearestEven]
      omega
    | true => simp [Accuracy.roundToNearestEven]

/-- The exponent that rounding brings a mantissa to: that of its leading bit in place, or the least one. -/
def target (m : Nat) (e : Int) : Int := max (m.log2 + e - 52) (-1074)

theorem targetExponent_eq (m : Nat) (e : Int) :
    Format.targetExponent .binary64 (totalExponent m e) = target m e := by
  change max ((m.log2 : Int) + 1 + e - 53) (-1074) = max ((m.log2 : Int) + e - 52) (-1074)
  congr 1
  omega

theorem shiftToTargetExponent_eq (m : Nat) (e : Int) (accuracy : Accuracy) :
    UnpackedFloat.shiftToTargetExponent .binary64 m e accuracy =
      (ExtendedMantissa.ofMantissaAndAccuracy m accuracy >>> (target m e - e).toNat,
        e + (target m e - e).toNat) := by
  rw [UnpackedFloat.shiftToTargetExponent, targetExponent_eq]
  rfl

/-- What is left of a mantissa at its target exponent. -/
theorem shifted_bounds (hm : 0 < m) (he : e ≤ target m e) :
    m / 2 ^ (target m e - e).toNat < 2 ^ 53 ∧
      (target m e ≠ -1074 → 2 ^ 52 ≤ m / 2 ^ (target m e - e).toNat) := by
  unfold target at *
  constructor
  · rw [Nat.div_lt_iff_lt_mul (Nat.two_pow_pos _), ← Nat.pow_add]
    exact Nat.lt_of_lt_of_le Nat.lt_log2_self (Nat.pow_le_pow_right (by decide) (by omega))
  · intro hleast
    rw [Nat.le_div_iff_mul_le (Nat.two_pow_pos _), ← Nat.pow_add]
    exact Nat.le_trans (Nat.pow_le_pow_right (by decide) (by omega)) (Nat.log2_self_le (by omega))

/-- The second shift of rounding: it takes the last bit of a mantissa that has become one bit too long. -/
theorem shiftToTargetExponent_rounded {r : Nat} {t : Int} (ht : -1074 ≤ t) (hr : r ≤ 2 ^ 53) :
    let shifted := UnpackedFloat.shiftToTargetExponent .binary64 r t .exact
    (r < 2 ^ 53 ∧ shifted.1.mantissa = r ∧ shifted.2 = t) ∨
      (r = 2 ^ 53 ∧ shifted.1.mantissa = 2 ^ 52 ∧ shifted.2 = t + 1) := by
  intro shifted
  have hshifted : shifted = _ := shiftToTargetExponent_eq r t .exact
  have hmantissa : shifted.1.mantissa = r / 2 ^ (target r t - t).toNat := by
    rw [hshifted]
    exact shiftRight_mantissa _ _
  have hexponent : shifted.2 = t + (target r t - t).toNat := by rw [hshifted]
  obtain hlt | rfl := Nat.lt_or_eq_of_le hr
  · have hlog : r.log2 < 53 := by
      obtain rfl | hpositive := Nat.eq_zero_or_pos r
      · decide
      · exact (Nat.log2_lt (by omega)).mpr hlt
    have hnone : (target r t - t).toNat = 0 := by
      unfold target
      omega
    rw [hnone] at hmantissa hexponent
    exact .inl ⟨hlt, by simpa using hmantissa, by simpa using hexponent⟩
  · have hone : (target (2 ^ 53) t - t).toNat = 1 := by
      unfold target
      rw [Nat.log2_two_pow]
      omega
    rw [hone] at hmantissa hexponent
    exact .inr ⟨rfl, hmantissa, hexponent⟩

/-- What rounding to an exponent ends in: a zero, at the least exponent, or a number at that exponent or, where it has
become one bit longer, at the next. -/
def RoundsTo (s : Sign) (t : Int) (x : UnpackedFloat) : Prop :=
  (x = .zero s ∧ t = -1074) ∨ ∃ m e hm, x = .finite s m e hm ∧ m < 2 ^ 53 ∧ (2 ^ 52 ≤ m ∨ e = -1074) ∧ t ≤ e ∧
    finitePlace m e ≤ (t + 1076).toNat * 2 ^ 52

theorem roundsTo_roundWithAccuracy (s : Sign) (hm : 0 < m) (he : e ≤ target m e) :
    RoundsTo s (target m e) (UnpackedFloat.roundWithAccuracy .binary64 s m e .exact) := by
  have hleast : -1074 ≤ target m e := Int.le_max_right _ _
  have hexponent : e + ((target m e - e).toNat : Int) = target m e := by omega
  obtain ⟨hlt, hleading⟩ := shifted_bounds hm he
  obtain ⟨r, hr⟩ : ∃ r, r = (ExtendedMantissa.ofMantissaAndAccuracy m .exact >>>
    (target m e - e).toNat).roundedMantissa := ⟨_, rfl⟩
  obtain ⟨hfloor, hceil⟩ : m / 2 ^ (target m e - e).toNat ≤ r ∧ r ≤ m / 2 ^ (target m e - e).toNat + 1 := by
    have hbounds := roundedMantissa_bounds (ExtendedMantissa.ofMantissaAndAccuracy m .exact >>>
      (target m e - e).toNat)
    rw [shiftRight_mantissa, ← hr] at hbounds
    exact hbounds
  obtain ⟨shifted, hshifted⟩ : ∃ shifted, shifted =
    UnpackedFloat.shiftToTargetExponent .binary64 r (target m e) .exact := ⟨_, rfl⟩
  have hopened : UnpackedFloat.roundWithAccuracy .binary64 s m e .exact =
      if h : shifted.1.mantissa = 0 then .zero s
      else .finite s shifted.1.mantissa shifted.2 (Nat.pos_of_ne_zero h) := by
    unfold UnpackedFloat.roundWithAccuracy
    rw [shiftToTargetExponent_eq m e, hexponent, hshifted, hr]
  have hcases := shiftToTargetExponent_rounded hleast (show r ≤ 2 ^ 53 by omega)
  rw [← hshifted] at hcases
  rw [hopened]
  by_cases hzero : shifted.1.mantissa = 0
  · rw [dif_pos hzero]
    refine .inl ⟨rfl, Decidable.byContradiction fun hmore => ?_⟩
    have := hleading hmore
    omega
  · rw [dif_neg hzero]
    refine .inr ⟨_, _, _, rfl, ?_⟩
    unfold finitePlace
    obtain ⟨hfew, hmantissa, hstays⟩ | ⟨hmany, hmantissa, hrises⟩ := hcases
    · rw [hmantissa, hstays]
      refine ⟨hfew, ?_, Int.le_refl _, by omega⟩
      by_cases hmore : target m e = -1074
      · exact .inr hmore
      · exact .inl (Nat.le_trans (hleading hmore) hfloor)
    · rw [hmantissa, hrises]
      exact ⟨by decide, .inl (Nat.le_refl _), by omega, by omega⟩

theorem log2_mul_two_pow (hm : 0 < m) (k : Nat) : (m * 2 ^ k).log2 = m.log2 + k := by
  have hpos : m * 2 ^ k ≠ 0 := Nat.ne_of_gt (Nat.mul_pos hm (Nat.two_pow_pos k))
  rw [Nat.log2_eq_iff hpos, Nat.pow_add, Nat.add_right_comm, Nat.pow_add]
  exact ⟨Nat.mul_le_mul_right _ (Nat.log2_self_le (Nat.ne_of_gt hm)),
    Nat.mul_lt_mul_of_pos_right Nat.lt_log2_self (Nat.two_pow_pos k)⟩

theorem roundsTo_round (s : Sign) (e : Int) (hm : 0 < m) :
    RoundsTo s (target m e) (UnpackedFloat.round .binary64 s m e) := by
  obtain ⟨k, hk⟩ : ∃ k, k = (e - target m e).toNat := ⟨_, rfl⟩
  have htarget : target (m * 2 ^ k) (e - k) = target m e := by
    unfold target
    rw [log2_mul_two_pow hm]
    congr 1
    omega
  have hopened : UnpackedFloat.round .binary64 s m e =
      UnpackedFloat.roundWithAccuracy .binary64 s (m * 2 ^ k) (e - k) .exact := by
    unfold UnpackedFloat.round
    simp only [targetExponent_eq, UnpackedFloat.decreaseExponent, ← hk, Nat.shiftLeft_eq]
  have hrounds := roundsTo_roundWithAccuracy (m := m * 2 ^ k) (e := e - k) s
    (Nat.mul_pos hm (Nat.two_pow_pos k)) (by omega)
  rwa [htarget, ← hopened] at hrounds

/-- Rounding in the range of doubles makes a number that is stored as it is, in no higher place than its bound. -/
theorem unpack_pack_round (s : Sign) (hm : 0 < m) (htarget : target m e ≤ 970) :
    (UnpackedFloat.unpack .binary64 (UnpackedFloat.pack .binary64 (UnpackedFloat.round .binary64 s m e)) = .zero s ∧
        target m e = -1074) ∨
      ∃ m' e' hm', UnpackedFloat.unpack .binary64 (UnpackedFloat.pack .binary64 (UnpackedFloat.round .binary64 s m e)) =
          .finite s m' e' hm' ∧ finitePlace m' e' ≤ (target m e + 1076).toNat * 2 ^ 52 := by
  obtain ⟨hround, hleast⟩ | ⟨m', e', hm', hround, hbits, hleading, hle, hplace⟩ := roundsTo_round s e hm
  · rw [hround, unpack_pack_zero]
    exact .inl ⟨rfl, hleast⟩
  · have hmin : -1074 ≤ target m e := Int.le_max_right _ _
    rw [hround, unpack_pack_finite ⟨by omega, ?_, hbits, hleading⟩]
    · exact .inr ⟨m', e', hm', rfl, hplace⟩
    · unfold finitePlace at hplace
      omega

theorem place_round_le (s : Sign) (hm : 0 < m) {t : Int} (htarget : target m e ≤ t) (ht : t ≤ 970) :
    place (UnpackedFloat.unpack .binary64 (UnpackedFloat.pack .binary64 (UnpackedFloat.round .binary64 s m e))) ≤
      (t + 1076).toNat * 2 ^ 52 := by
  obtain ⟨hzero, -⟩ | ⟨m', e', hm', hfinite, hplace⟩ := unpack_pack_round s hm (Int.le_trans htarget ht)
  · rw [hzero]
    exact Nat.zero_le _
  · rw [hfinite]
    exact Nat.le_trans hplace (Nat.mul_le_mul_right _ (by omega))

/-- A whole number that fits a word becomes a finite double that is not zero unless the number is. -/
theorem ofNat_parts {n : Nat} (hpos : 0 < n) (hfits : n < 2 ^ 64) :
    ∃ m e hm, (Scalar.ofNat n : Float).toModel.unpack = .finite .positive m e hm := by
  have hlog : n.log2 < 64 := (Nat.log2_lt (Nat.ne_of_gt hpos)).mpr hfits
  have hparts : (Scalar.ofNat n : Float).toModel.unpack = UnpackedFloat.unpack .binary64
      (UnpackedFloat.pack .binary64 (UnpackedFloat.round .binary64 .positive n 0)) := by
    have hword : n.toUInt64.toNat = n := Nat.mod_eq_of_lt hfits
    change UnpackedFloat.unpack .binary64 (UnpackedFloat.pack .binary64
      (UnpackedFloat.normalize .binary64 (n.toUInt64.toNat : Int) 0 .positive)) = _
    rw [hword, UnpackedFloat.normalize, Int.compare_eq_gt.mpr (Int.natCast_pos.mpr hpos)]
    rfl
  rw [hparts]
  obtain ⟨-, hleast⟩ | ⟨m, e, hm, hfinite, -⟩ :=
    unpack_pack_round (m := n) (e := 0) .positive hpos (by unfold target; omega)
  · unfold target at hleast
    omega
  · exact ⟨m, e, hm, hfinite⟩

end Scoring
end MusicImport
