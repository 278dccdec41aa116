import MusicImport.Scoring.Distance

/-! A similarity is always a number, whatever was compared: what is no number counts as a distance of one,
and a difference of two numbers of which one is finite is a number. So a similarity that is not below a
threshold reaches it. -/
namespace MusicImport
namespace Scoring

open Float.Model (Format UnpackedFloat)
open Float.Model.UnpackedFloat (Sign packComponents packedInfinity)

variable {spec : Format} {x y : UnpackedFloat} {a b : Float}

theorem ofNat_ne_allOnes {w n : Nat} (h : n < (BitVec.allOnes w).toNat) :
    BitVec.ofNat w n ≠ BitVec.allOnes w := by
  intro heq
  have htoNat := congrArg BitVec.toNat heq
  rw [BitVec.toNat_ofNat, Nat.mod_eq_of_lt (Nat.lt_trans h (BitVec.isLt _))] at htoNat
  omega

theorem isNaN_packComponents (sign : Sign) {exponent : BitVec spec.exponentBits}
    (h : exponent ≠ BitVec.allOnes _) (mantissa : BitVec spec.mantissaBitsWithoutImplicit) :
    (UnpackedFloat.unpack spec (packComponents spec sign exponent mantissa)).isNaN = false := by
  unfold UnpackedFloat.unpack
  rw [UnpackedFloat.unpackExponent_packComponents]
  dsimp only
  rw [if_neg (by rwa [BitVec.neg_one_eq_allOnes])]
  by_cases hzero : exponent = BitVec.ofNat _ 0
  · rw [if_pos hzero]
    by_cases hnone : UnpackedFloat.unpackMantissa (packComponents spec sign exponent mantissa) = BitVec.ofNat _ 0
    · rw [dif_pos hnone]
      rfl
    · rw [dif_neg hnone]
      rfl
  · rw [if_neg hzero]
    rfl

theorem isNaN_packedInfinity (sign : Sign) :
    (UnpackedFloat.unpack spec (packedInfinity spec sign)).isNaN = false := by
  unfold UnpackedFloat.unpack packedInfinity
  rw [UnpackedFloat.unpackExponent_packComponents]
  dsimp only
  rw [if_pos rfl, UnpackedFloat.unpackMantissa_packComponents]
  rfl

/-- Packing a number may make it infinite, but keeps it a number. -/
theorem isNaN_pack (h : x.isNaN = false) :
    (UnpackedFloat.unpack spec (UnpackedFloat.pack spec x)).isNaN = false := by
  have hzero : BitVec.ofNat spec.exponentBits 0 ≠ BitVec.allOnes _ := by
    apply ofNat_ne_allOnes
    rw [BitVec.toNat_allOnes]
    exact Nat.sub_pos_of_lt (Nat.one_lt_two_pow (Nat.ne_of_gt spec.he))
  cases x with
  | notANumber => cases h
  | infinity sign => exact isNaN_packedInfinity sign
  | zero sign => exact isNaN_packComponents sign hzero 0
  | finite sign m e hm =>
    unfold UnpackedFloat.pack
    dsimp only
    split
    · exact isNaN_packedInfinity sign
    next hsmall =>
    split
    · refine isNaN_packComponents sign (ofNat_ne_allOnes ?_) _
      rw [BitVec.toNat_allOnes]
      omega
    · exact isNaN_packComponents sign hzero _

theorem isNaN_zeroOrFinite (sign : Sign) (m : Nat) (e : Int) :
    (if h : m = 0 then UnpackedFloat.zero sign
      else UnpackedFloat.finite sign m e (Nat.pos_of_ne_zero h)).isNaN = false := by
  cases m with
  | zero => rfl
  | succ n => rfl

theorem isNaN_normalize (mantissa exponent : Int) (sign : Sign) :
    (UnpackedFloat.normalize spec mantissa exponent sign).isNaN = false := by
  have hround (s : Sign) (m : Nat) : (UnpackedFloat.round spec s m exponent).isNaN = false := by
    unfold UnpackedFloat.round UnpackedFloat.roundWithAccuracy
    exact isNaN_zeroOrFinite s _ _
  unfold UnpackedFloat.normalize
  split
  · exact hround _ _
  · rfl
  · exact hround _ _

theorem isNaN_sub (hx : x.isNaN = false) (hy : y.isNaN = false)
    (hfinite : ∀ sign, y ≠ .infinity sign) : (UnpackedFloat.sub spec x y).isNaN = false := by
  cases y with
  | notANumber => cases hy
  | infinity sign => exact absurd rfl (hfinite sign)
  | zero sign =>
    cases x with
    | notANumber => cases hx
    | infinity sign' => rfl
    | zero sign' => cases sign <;> cases sign' <;> rfl
    | finite sign' m e hm => rfl
  | finite sign m e hm =>
    cases x with
    | notANumber => cases hx
    | infinity sign' => rfl
    | zero sign' => rfl
    | finite sign' m' e' hm' => exact isNaN_normalize _ _ _

theorem compare_swap (hx : x.isNaN = false) (hy : y.isNaN = false) :
    ∃ o : Ordering, x.compare y = some o ∧ y.compare x = some o.swap := by
  cases x with
  | notANumber => cases hx
  | infinity s =>
    cases y with
    | notANumber => cases hy
    | infinity s' => cases s <;> cases s' <;> exact ⟨_, rfl, rfl⟩
    | zero s' => cases s <;> exact ⟨_, rfl, rfl⟩
    | finite s' m' e' hm' => cases s <;> cases s' <;> exact ⟨_, rfl, rfl⟩
  | zero s =>
    cases y with
    | notANumber => cases hy
    | infinity s' => cases s' <;> exact ⟨_, rfl, rfl⟩
    | zero s' => exact ⟨_, rfl, rfl⟩
    | finite s' m' e' hm' => cases s' <;> exact ⟨_, rfl, rfl⟩
  | finite s m e hm =>
    cases y with
    | notANumber => cases hy
    | infinity s' => cases s <;> cases s' <;> exact ⟨_, rfl, rfl⟩
    | zero s' => cases s <;> exact ⟨_, rfl, rfl⟩
    | finite s' m' e' hm' =>
      have hswap : ((compare e e').then (compare m m')).swap = (compare e' e).then (compare m' m) := by
        rw [Ordering.swap_then, Int.compare_swap, Nat.compare_swap]
      cases s <;> cases s'
      · exact ⟨_, rfl, congrArg (fun o : Ordering => some o.swap) hswap.symm⟩
      · exact ⟨_, rfl, rfl⟩
      · exact ⟨_, rfl, rfl⟩
      · exact ⟨_, rfl, congrArg some hswap.symm⟩

theorem lt_of_compare (h : a.toModel.unpack.compare b.toModel.unpack = some .lt) : a < b := by
  have hlt : Float.Model.lt a.toModel b.toModel = true := by
    show (a.toModel.unpack.compare b.toModel.unpack == some .lt) = true
    rw [h]
    rfl
  exact decide_eq_true hlt

theorem le_of_not_lt (ha : a.isNaN = false) (hb : b.isNaN = false) (h : ¬ a < b) : b ≤ a := by
  obtain ⟨o, hab, hba⟩ := compare_swap (x := a.toModel.unpack) (y := b.toModel.unpack) ha hb
  have hle : (b.toModel.unpack.compare a.toModel.unpack).any (·.isLE) = true := by
    rw [hba]
    cases o with
    | lt => exact absurd (lt_of_compare hab) h
    | eq => rfl
    | gt => rfl
  exact decide_eq_true (show Float.Model.le b.toModel a.toModel = true from hle)

/-- What is a number between zero and one is finite. -/
theorem unit_number (a : Float) : (Scalar.unit a).isNaN = false ∧
    ∀ sign, (Scalar.unit a).toModel.unpack ≠ .infinity sign := by
  have hzero : (Scalar.zero : Float).toModel.unpack = .zero .positive := rfl
  obtain ⟨m, e, hm, hone⟩ : ∃ m e hm, (Scalar.one : Float).toModel.unpack = .finite .positive m e hm :=
    ⟨_, _, _, rfl⟩
  have hisOne : (Scalar.one : Float).isNaN = false ∧
      ∀ sign, (Scalar.one : Float).toModel.unpack ≠ .infinity sign := ⟨rfl, by rw [hone]; nofun⟩
  unfold Scalar.unit Scalar.clamp
  split
  · exact hisOne
  next hnumber =>
  split
  · exact ⟨rfl, by rw [hzero]; nofun⟩
  next hnonnegative =>
  split
  · exact hisOne
  next hsmall =>
  refine ⟨Bool.eq_false_iff.mpr hnumber, fun sign hinfinite => ?_⟩
  cases sign with
  | negative =>
    apply hnonnegative
    apply decide_eq_true
    apply lt_of_compare
    rw [hinfinite, hzero]
    rfl
  | positive =>
    apply hsmall
    apply decide_eq_true
    apply lt_of_compare
    rw [hinfinite, hone]
    rfl

theorem normalized_number (d : Distance Float) : d.normalized.isNaN = false ∧
    ∀ sign, d.normalized.toModel.unpack ≠ .infinity sign := by
  unfold Distance.normalized
  split
  · have hzero : (Scalar.zero : Float).toModel.unpack = .zero .positive := rfl
    exact ⟨rfl, by rw [hzero]; nofun⟩
  · exact unit_number _

theorem similarity_isNaN (d : Distance Float) : d.similarity.isNaN = false := by
  obtain ⟨hnumber, hfinite⟩ := normalized_number d
  show (UnpackedFloat.unpack .binary64 (UnpackedFloat.pack .binary64 (UnpackedFloat.sub .binary64
    (Scalar.one : Float).toModel.unpack d.normalized.toModel.unpack))).isNaN = false
  exact isNaN_pack (isNaN_sub rfl hnumber hfinite)

/-- A similarity that is not below a number is at least that number. -/
theorem le_similarity {d : Distance Float} {threshold : Float} (h : ¬ d.similarity < threshold)
    (hthreshold : threshold.isNaN = false) : threshold ≤ d.similarity :=
  le_of_not_lt (similarity_isNaN d) hthreshold h

end Scoring
end MusicImport
