import MusicImport.Proofs.Scoring.Signs

/-! The order of doubles. The word of a double, its sign left out, tells its place among all doubles of its sign:
by the exponent, and by the mantissa where exponents are equal. So doubles with the positive sign compare as their
words do, and a smaller one taken from a larger one leaves a number that is not below zero. -/
namespace MusicImport
namespace Scoring

open Float.Model (Format UnpackedFloat)
open Float.Model.UnpackedFloat (Sign unpackSign unpackExponent unpackMantissa)

variable {x y : UnpackedFloat} {a b : Float}

/-- An exponent in its range, and a mantissa with its leading bit in place unless the exponent is the least. -/
structure Canonical (m : Nat) (e : Int) : Prop where
  least : -1074 ≤ e
  greatest : e ≤ 971
  bits : m < 2 ^ 53
  leading : 2 ^ 52 ≤ m ∨ e = -1074

/-- The form in which doubles are stored. -/
def Stored : UnpackedFloat → Prop
  | .finite _ m e _ => Canonical m e
  | _ => True

/-- The place of a finite double among those of the same sign. -/
def finitePlace (m : Nat) (e : Int) : Nat := (e + 1074).toNat * 2 ^ 52 + m

/-- The place among the doubles of the same sign. -/
def place : UnpackedFloat → Nat
  | .notANumber => 0
  | .zero _ => 0
  | .infinity _ => 2047 * 2 ^ 52
  | .finite _ m e _ => finitePlace m e

variable {word : BitVec 64}

theorem toNat_unpackMantissa (word : BitVec 64) :
    (@unpackMantissa .binary64 word).toNat = word.toNat % 2 ^ 52 := by
  simp [unpackMantissa, BitVec.extractLsb]

theorem toNat_unpackExponent (word : BitVec 64) :
    (@unpackExponent .binary64 word).toNat = word.toNat / 2 ^ 52 % 2 ^ 11 := by
  simp [unpackExponent, BitVec.extractLsb, Nat.shiftRight_eq_div_pow]

theorem toNat_unpackSign (word : BitVec 64) :
    (@unpackSign .binary64 word).toNat = word.toNat / 2 ^ 63 % 2 := by
  simp [UnpackedFloat.unpackSign_def, Nat.shiftRight_eq_div_pow]

theorem toNat_leading_append (mantissa : BitVec 52) : (1#1 ++ mantissa).toNat = 2 ^ 52 + mantissa.toNat := by
  rw [BitVec.toNat_append, ← Nat.shiftLeft_add_eq_or_of_lt mantissa.isLt]
  rfl

theorem finite_congr {s : Sign} {m m' : Nat} {e e' : Int} {hm : 0 < m} {hm' : 0 < m'} (h : m = m') (h' : e = e') :
    UnpackedFloat.finite s m e hm = .finite s m' e' hm' := by
  subst h h'
  rfl

/-- What a word stands for, by its exponent and mantissa as numbers. -/
theorem unpack_word (word : BitVec 64) :
    let s := Sign.ofBitVec (@unpackSign .binary64 word)
    let exponent := word.toNat / 2 ^ 52 % 2 ^ 11
    let mantissa := word.toNat % 2 ^ 52
    UnpackedFloat.unpack .binary64 word = .notANumber ∨
      (UnpackedFloat.unpack .binary64 word = .infinity s ∧ exponent = 2047 ∧ mantissa = 0) ∨
      (UnpackedFloat.unpack .binary64 word = .zero s ∧ exponent = 0 ∧ mantissa = 0) ∨
      ∃ m e hm, UnpackedFloat.unpack .binary64 word = .finite s m e hm ∧ Canonical m e ∧
        exponent * 2 ^ 52 + mantissa = finitePlace m e := by
  intro s exponent mantissa
  have hexponent : (@unpackExponent .binary64 word).toNat = exponent := toNat_unpackExponent word
  have hmantissa : (@unpackMantissa .binary64 word).toNat = mantissa := toNat_unpackMantissa word
  have hfew : mantissa < 2 ^ 52 := Nat.mod_lt _ (Nat.two_pow_pos _)
  have hless : exponent < 2 ^ 11 := Nat.mod_lt _ (Nat.two_pow_pos _)
  have hfield {n : Nat} (hn : n < 2 ^ 11) : @unpackExponent .binary64 word = BitVec.ofNat 11 n ↔ exponent = n := by
    rw [← hexponent, ← BitVec.toNat_inj, BitVec.toNat_ofNat, Nat.mod_eq_of_lt hn]
  have hnone : @unpackMantissa .binary64 word = 0#52 ↔ mantissa = 0 := by
    rw [← hmantissa, ← BitVec.toNat_inj]
    rfl
  unfold UnpackedFloat.unpack
  dsimp only
  split
  next hall =>
    have hall' : exponent = 2047 := (hfield (by decide)).mp hall
    split
    next hzero => exact .inr (.inl ⟨rfl, hall', hnone.mp hzero⟩)
    · exact .inl rfl
  next hall =>
  have hall' : exponent ≠ 2047 := fun h => hall ((hfield (by decide)).mpr h)
  split
  next hleast =>
    have hleast' : exponent = 0 := (hfield (by decide)).mp hleast
    split
    next hzero => exact .inr (.inr (.inl ⟨rfl, hleast', hnone.mp hzero⟩))
    next hzero =>
      refine .inr (.inr (.inr ⟨mantissa, -1074, Nat.pos_of_ne_zero fun h => hzero (hnone.mpr h), ?_,
        ⟨by decide, by decide, by omega, .inr rfl⟩, by rw [hleast']; rfl⟩))
      refine finite_congr hmantissa ?_
      rw [hexponent, hleast']
      rfl
  next hleast =>
    have hleast' : exponent ≠ 0 := fun h => hleast ((hfield (by decide)).mpr h)
    refine .inr (.inr (.inr ⟨2 ^ 52 + mantissa, exponent - 1075, by omega, ?_,
      ⟨by omega, by omega, by omega, .inl (by omega)⟩, by unfold finitePlace; omega⟩))
    refine finite_congr ?_ ?_
    · rw [toNat_leading_append, hmantissa]
    · rw [hexponent]
      rfl

theorem stored_unpack (word : BitVec 64) : Stored (UnpackedFloat.unpack .binary64 word) := by
  obtain hnone | ⟨hinfinite, -⟩ | ⟨hzero, -⟩ | ⟨m, e, hm, hfinite, hcanonical, -⟩ := unpack_word word
  · rw [hnone]
    trivial
  · rw [hinfinite]
    trivial
  · rw [hzero]
    trivial
  · rw [hfinite]
    exact hcanonical

/-- The word of a double with the positive sign is its place. -/
theorem toNat_eq_place (h : Plus (UnpackedFloat.unpack .binary64 word)) :
    word.toNat = place (UnpackedFloat.unpack .binary64 word) := by
  have hword : word.toNat / 2 ^ 63 % 2 = 0 →
      word.toNat = word.toNat / 2 ^ 52 % 2 ^ 11 * 2 ^ 52 + word.toNat % 2 ^ 52 := by
    have := word.isLt
    omega
  have hsign (hs : Sign.ofBitVec (@unpackSign .binary64 word) = .positive) : word.toNat / 2 ^ 63 % 2 = 0 := by
    rw [← toNat_unpackSign]
    unfold Sign.ofBitVec at hs
    split at hs
    next hzero =>
      rw [hzero]
      rfl
    · cases hs
  obtain hnone | ⟨hinfinite, hexponent, hmantissa⟩ | ⟨hzero, hexponent, hmantissa⟩ |
    ⟨m, e, hm, hfinite, -, hplace⟩ := unpack_word word
  · rw [hnone] at h
    cases h
  · rw [hinfinite] at h ⊢
    rw [hword (hsign h), hexponent, hmantissa]
    rfl
  · rw [hzero] at h ⊢
    rw [hword (hsign h), hexponent, hmantissa]
    rfl
  · rw [hfinite] at h ⊢
    rw [hword (hsign h), hplace]
    rfl

theorem finitePlace_lt {m m' : Nat} {e e' : Int} (h : Canonical m e) (h' : Canonical m' e') (he : e < e') :
    finitePlace m e < finitePlace m' e' := by
  obtain ⟨hleast, -, hbits, -⟩ := h
  obtain ⟨-, -, -, hleading⟩ := h'
  unfold finitePlace
  omega

theorem compare_finitePlace {m m' : Nat} {e e' : Int} (h : Canonical m e) (h' : Canonical m' e') :
    (compare e e').then (compare m m') = compare (finitePlace m e) (finitePlace m' e') := by
  obtain hlt | rfl | hgt := Int.lt_trichotomy e e'
  · rw [Int.compare_eq_lt.mpr hlt, Nat.compare_eq_lt.mpr (finitePlace_lt h h' hlt)]
    rfl
  · rw [Int.compare_eq_eq.mpr rfl]
    change compare m m' = compare (_ + m) (_ + m')
    obtain hlt | rfl | hgt := Nat.lt_trichotomy m m'
    · rw [Nat.compare_eq_lt.mpr hlt, Nat.compare_eq_lt.mpr (Nat.add_lt_add_left hlt _)]
    · rw [Nat.compare_eq_eq.mpr rfl, Nat.compare_eq_eq.mpr rfl]
    · rw [Nat.compare_eq_gt.mpr hgt, Nat.compare_eq_gt.mpr (Nat.add_lt_add_left hgt _)]
  · rw [Int.compare_eq_gt.mpr hgt, Nat.compare_eq_gt.mpr (finitePlace_lt h' h hgt)]
    rfl

theorem finitePlace_lt_infinity {m : Nat} {e : Int} (h : Canonical m e) : finitePlace m e < 2047 * 2 ^ 52 := by
  obtain ⟨-, hgreatest, hbits, -⟩ := h
  unfold finitePlace
  omega

theorem place_le_infinity (h : Stored x) : place x ≤ 2047 * 2 ^ 52 := by
  cases x with
  | notANumber | zero s => exact Nat.zero_le _
  | infinity s => exact Nat.le_refl _
  | finite s m e hm => exact Nat.le_of_lt (finitePlace_lt_infinity h)

theorem finitePlace_pos {m : Nat} {e : Int} (h : 0 < m) : 0 < finitePlace m e := by
  unfold finitePlace
  omega

/-- Numbers that are not below zero compare as their places do. -/
theorem compare_place (hx : AtLeastZero x) (hy : AtLeastZero y) (hstored : Stored x) (hstored' : Stored y) :
    x.compare y = some (compare (place x) (place y)) := by
  obtain ⟨s, rfl⟩ | rfl | ⟨m, e, hm, rfl⟩ := hx.cases
  · obtain ⟨s', rfl⟩ | rfl | ⟨m', e', hm', rfl⟩ := hy.cases
    · rfl
    · rfl
    · exact congrArg some (Nat.compare_eq_lt.mpr (finitePlace_pos hm')).symm
  · obtain ⟨s', rfl⟩ | rfl | ⟨m', e', hm', rfl⟩ := hy.cases
    · rfl
    · rfl
    · exact congrArg some (Nat.compare_eq_gt.mpr (finitePlace_lt_infinity hstored')).symm
  · obtain ⟨s', rfl⟩ | rfl | ⟨m', e', hm', rfl⟩ := hy.cases
    · exact congrArg some (Nat.compare_eq_gt.mpr (finitePlace_pos hm)).symm
    · exact congrArg some (Nat.compare_eq_lt.mpr (finitePlace_lt_infinity hstored)).symm
    · exact congrArg some (compare_finitePlace hstored hstored')

/-- In the smaller exponent of both, the mantissa of the smaller number is not larger. -/
theorem decreaseExponent_le {m m' : Nat} {e e' : Int} (h : Canonical m e) (h' : Canonical m' e')
    (hle : finitePlace m e ≤ finitePlace m' e') :
    (UnpackedFloat.decreaseExponent m e (min e e')).1 ≤ (UnpackedFloat.decreaseExponent m' e' (min e e')).1 := by
  simp only [UnpackedFloat.decreaseExponent, Nat.shiftLeft_eq]
  obtain hlt | rfl | hgt := Int.lt_trichotomy e e'
  · obtain ⟨hleast, -, hbits, -⟩ := h
    have hleading : 2 ^ 52 ≤ m' := h'.leading.resolve_right (by omega)
    have hpow : 2 ≤ 2 ^ (e' - e).toNat := by
      calc 2 = 2 ^ 1 := rfl
        _ ≤ 2 ^ (e' - e).toNat := Nat.pow_le_pow_right (by decide) (by omega)
    rw [Int.min_eq_left (Int.le_of_lt hlt), Int.sub_self]
    calc m * 2 ^ Int.toNat 0 = m := Nat.mul_one m
      _ ≤ 2 ^ 52 * 2 := by omega
      _ ≤ m' * 2 ^ (e' - e).toNat := Nat.mul_le_mul hleading hpow
  · have hle' : m ≤ m' := Nat.le_of_add_le_add_left hle
    exact Nat.mul_le_mul_right _ hle'
  · exact absurd hle (Nat.not_le.mpr (finitePlace_lt h' h hgt))

/-- A finite number taken from one that is not smaller leaves one with the positive sign. -/
theorem plus_sub {spec : Format} (hx : Plus x) (hy : AtLeastZero y) (hfinite : y.isFinite = true)
    (hstored : Stored x) (hstored' : Stored y) (hle : place y ≤ place x) : Plus (UnpackedFloat.sub spec x y) := by
  obtain ⟨s', rfl⟩ | rfl | ⟨m', e', hm', rfl⟩ := hy.cases
  · obtain rfl | rfl | ⟨m, e, hm, rfl⟩ := hx.cases <;> cases s' <;> rfl
  · cases hfinite
  · obtain rfl | rfl | ⟨m, e, hm, rfl⟩ := hx.cases
    · exact absurd hle (Nat.not_le.mpr (finitePlace_pos hm'))
    · rfl
    · refine plus_normalize (Int.sub_nonneg_of_le ?_) _
      have hmantissa := decreaseExponent_le hstored' hstored hle
      rw [Int.min_comm] at hmantissa
      exact Int.ofNat_le.mpr hmantissa

theorem lt_iff : a < b ↔ a.toModel.unpack.compare b.toModel.unpack = some .lt := by
  refine ⟨fun h => ?_, lt_of_compare⟩
  have hlt : (a.toModel.unpack.compare b.toModel.unpack == some .lt) = true := of_decide_eq_true h
  exact eq_of_beq hlt

theorem lt_iff_place (ha : AtLeastZero a.toModel.unpack) (hb : AtLeastZero b.toModel.unpack) :
    a < b ↔ place a.toModel.unpack < place b.toModel.unpack := by
  rw [lt_iff, compare_place ha hb (stored_unpack _) (stored_unpack _), Option.some_inj, Nat.compare_eq_lt]

/-- A finite double taken from a larger one leaves one with the positive sign. -/
theorem plus_sub_of_lt (ha : AtLeastZero a.toModel.unpack) (hb : AtLeastZero b.toModel.unpack)
    (hfinite : b.isFinite = true) (h : b < a) : Plus (a - b).toModel.unpack := by
  have hlt := (lt_iff_place hb ha).mp h
  have hplus : Plus a.toModel.unpack := by
    refine ha.resolve_right fun hzero => ?_
    obtain ⟨s, hs⟩ := hzero.cases
    rw [hs] at hlt
    exact Nat.not_lt_zero _ hlt
  exact (plus_sub hplus hb hfinite (stored_unpack _) (stored_unpack _) (Nat.le_of_lt hlt)).pack

end Scoring
end MusicImport
