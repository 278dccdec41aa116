import MusicImport.Proofs.Scoring.UnitInterval

/-! Distances stay within their bounds, whatever contributes to them. Contributions may be negative, infinite or no
numbers at all; each of them comes out as a number from zero to its bound, and so do their sums. In exact arithmetic
distances are then ordered as the quotients of their penalties and bounds are. -/
namespace MusicImport

/-- Rational numbers, the two infinities, and what is no number. Rational numbers are added, multiplied and divided
as such; the rest follows the rules for doubles, where zero counts as positive. -/
inductive Extended
  | number (value : ℚ)
  | infinite (positive : Bool)
  | missing
deriving DecidableEq

namespace Extended

def add : Extended → Extended → Extended
  | .number p, .number q => .number (p + q)
  | .infinite s, .infinite s' => if s = s' then .infinite s else .missing
  | .infinite s, .number _ | .number _, .infinite s => .infinite s
  | .missing, _ | _, .missing => .missing

def neg : Extended → Extended
  | .number p => .number (-p)
  | .infinite s => .infinite !s
  | .missing => .missing

def mul : Extended → Extended → Extended
  | .number p, .number q => .number (p * q)
  | .infinite s, .infinite s' => .infinite (s == s')
  | .infinite s, .number q | .number q, .infinite s =>
    if q = 0 then .missing else .infinite (s == decide (0 < q))
  | .missing, _ | _, .missing => .missing

def div : Extended → Extended → Extended
  | .number p, .number q =>
    if q ≠ 0 then .number (p / q) else if p = 0 then .missing else .infinite (decide (0 < p))
  | .number _, .infinite _ => .number 0
  | .infinite s, .number q => .infinite (s == decide (0 ≤ q))
  | .infinite _, .infinite _ => .missing
  | .missing, _ | _, .missing => .missing

/-- Comparisons fail where there is no number. -/
def lt : Extended → Extended → Bool
  | .number p, .number q => p < q
  | .number _, .infinite s => s
  | .infinite s, .number _ => !s
  | .infinite s, .infinite s' => !s && s'
  | .missing, _ | _, .missing => false

def isNaN : Extended → Bool
  | .missing => true
  | _ => false

def isFinite : Extended → Bool
  | .number _ => true
  | _ => false

/-- The place of a value that is not a rational number, before or after all of these. -/
def rank : Extended → Nat
  | .infinite false => 0
  | .number _ => 1
  | .infinite true => 2
  | .missing => 3

def order : Extended → Extended → Ordering
  | .number p, .number q => if p < q then .lt else if p = q then .eq else .gt
  | a, b => compare a.rank b.rank

instance : Scalar Extended where
  add := add
  sub a b := add a (neg b)
  mul := mul
  div := div
  ofNat n := .number n
  lt := lt
  le a b := !a.isNaN && !b.isNaN && !lt b a
  isFinite := isFinite
  isNaN := isNaN
  huge := .number (Nat.pow 2 1022 : Nat)
  order := order

variable {p q : ℚ}

theorem zero_eq : (Scalar.zero : Extended) = .number 0 := rfl

theorem add_number (p q : ℚ) : (.number p + .number q : Extended) = .number (p + q) := rfl

theorem le_number (p q : ℚ) : Scalar.le (.number p) (.number q : Extended) = decide (p ≤ q) := by
  change (!decide (q < p)) = decide (p ≤ q)
  rw [← decide_not, decide_eq_decide, not_lt]

theorem order_number (p q : ℚ) : Scalar.order (.number p) (.number q : Extended) = cmp p q := by
  change (if p < q then Ordering.lt else if p = q then .eq else .gt) =
    if p < q then .lt else if q < p then .gt else .eq
  obtain hlt | rfl | hgt := lt_trichotomy p q
  · rw [if_pos hlt, if_pos hlt]
  · rw [if_neg (lt_irrefl _), if_neg (lt_irrefl _), if_neg (lt_irrefl _), if_pos rfl]
  · rw [if_neg hgt.not_gt, if_neg hgt.not_gt, if_neg hgt.ne', if_pos hgt]

theorem nonnegative_number (a : Extended) : ∃ q : ℚ, 0 ≤ q ∧ Scalar.nonnegative a = .number q := by
  cases a with
  | missing => exact ⟨0, le_rfl, rfl⟩
  | infinite s => exact ⟨0, le_rfl, rfl⟩
  | number q =>
    have hkept : Scalar.nonnegative (.number q : Extended) = if decide (0 < q) then .number q else .number 0 := rfl
    rw [hkept]
    by_cases hpos : 0 < q
    · exact ⟨q, hpos.le, if_pos (decide_eq_true hpos)⟩
    · exact ⟨0, le_rfl, if_neg (by rwa [decide_eq_true_eq])⟩

theorem min_number (p q : ℚ) : Scalar.min (.number p) (.number q : Extended) = .number (min p q) := by
  change (if decide (q < p) then Extended.number q else .number p) = _
  by_cases hlt : q < p
  · rw [if_pos (decide_eq_true hlt), min_eq_right hlt.le]
  · rw [if_neg (by rwa [decide_eq_true_eq]), min_eq_left (not_lt.mp hlt)]

/-- What lies from zero to one is not cut. -/
theorem unit_number (hzero : 0 ≤ q) (hone : q ≤ 1) : Scalar.unit (.number q : Extended) = .number q := by
  change (if decide (q < 0) then Extended.number 0 else if decide (1 < q) then .number 1 else .number q) = _
  rw [if_neg (by rw [decide_eq_true_eq]; exact hzero.not_gt),
    if_neg (by rw [decide_eq_true_eq]; exact hone.not_gt)]

end Extended

section
variable {α β : Type}

/-- What is added to a distance, as it is handed in. -/
inductive Contribution (α : Type)
  | fraction (field : DistanceField) (weight value : α)
  | penalty (field : DistanceField) (value bound : α)

def DistanceComponent.map (f : α → β) (k : DistanceComponent α) : DistanceComponent β :=
  ⟨k.field, f k.penalty, f k.bound⟩

namespace Distance

def map (f : α → β) (d : Distance α) : Distance β := ⟨f d.penalty, f d.bound, d.components.map (·.map f)⟩

variable [Scalar α]

def contribute (d : Distance α) : Contribution α → Distance α
  | .fraction field weight value => d.addFraction field weight value
  | .penalty field value bound => d.addPenalty field value bound

/-- The distance of contributions, in the order in which they are handed in. -/
def ofContributions (cs : List (Contribution α)) : Distance α := cs.foldl contribute .empty

end Distance

/-- What a contribution comes to. -/
def Contribution.component [Scalar α] : Contribution α → DistanceComponent α
  | .fraction field weight value =>
    let bound := Scalar.nonnegative (Scalar.nonnegative weight)
    ⟨field, Scalar.min (Scalar.nonnegative (Scalar.nonnegative weight * Scalar.unit value)) bound, bound⟩
  | .penalty field value bound =>
    ⟨field, Scalar.min (Scalar.nonnegative value) (Scalar.nonnegative bound), Scalar.nonnegative bound⟩

namespace Distance
variable [Scalar α]

theorem contribute_eq (d : Distance α) (c : Contribution α) : d.contribute c =
    ⟨d.penalty + c.component.penalty, d.bound + c.component.bound, d.components ++ [c.component]⟩ := by
  cases c <;> rfl

theorem foldl_contribute (d : Distance α) (cs : List (Contribution α)) : cs.foldl contribute d =
    ⟨(cs.map (·.component.penalty)).foldl (· + ·) d.penalty, (cs.map (·.component.bound)).foldl (· + ·) d.bound,
      d.components ++ cs.map (·.component)⟩ := by
  induction cs generalizing d with
  | nil => simp only [List.foldl_nil, List.map_nil, List.append_nil]
  | cons c cs ih =>
    simp only [List.foldl_cons, List.map_cons, ih, contribute_eq, List.append_assoc, List.singleton_append]

theorem ofContributions_eq (cs : List (Contribution α)) : ofContributions cs =
    ⟨(cs.map (·.component.penalty)).foldl (· + ·) Scalar.zero,
      (cs.map (·.component.bound)).foldl (· + ·) Scalar.zero, cs.map (·.component)⟩ :=
  foldl_contribute .empty cs

end Distance
end

namespace Distance

/-- The penalty as a part of its bound; zero when nothing was compared. -/
def quotient (d : Distance ℚ) : ℚ := if d.bound = 0 then 0 else d.penalty / d.bound

/-- Numbers with contributions from zero to their bounds. -/
structure Bounded (d : Distance ℚ) : Prop where
  component : ∀ k ∈ d.components, 0 ≤ k.penalty ∧ k.penalty ≤ k.bound
  penalty : d.penalty = (d.components.map (·.penalty)).sum
  bound : d.bound = (d.components.map (·.bound)).sum

namespace Bounded
variable {d : Distance ℚ}

theorem penalty_nonneg (h : d.Bounded) : 0 ≤ d.penalty := by
  rw [h.penalty]
  refine List.sum_nonneg fun _ hx => ?_
  obtain ⟨k, hk, rfl⟩ := List.mem_map.mp hx
  exact (h.component k hk).1

theorem penalty_le_bound (h : d.Bounded) : d.penalty ≤ d.bound := by
  rw [h.penalty, h.bound]
  exact List.sum_le_sum fun k hk => (h.component k hk).2

theorem quotient_mem_Icc (h : d.Bounded) : d.quotient ∈ Set.Icc (0 : ℚ) 1 := by
  unfold quotient
  split
  · exact ⟨le_rfl, zero_le_one⟩
  · have hbound : 0 ≤ d.bound := h.penalty_nonneg.trans h.penalty_le_bound
    exact ⟨div_nonneg h.penalty_nonneg hbound, div_le_one_of_le₀ h.penalty_le_bound hbound⟩

theorem normalized_number (h : d.Bounded) : (d.map Extended.number).normalized = .number d.quotient := by
  have hbound : 0 ≤ d.bound := h.penalty_nonneg.trans h.penalty_le_bound
  have hopened : (d.map Extended.number).normalized =
      if Scalar.le (.number d.bound : Extended) (.number 0) then .number 0
      else Scalar.unit (.number d.penalty / .number d.bound) := rfl
  rw [hopened, Extended.le_number]
  by_cases hnone : d.bound = 0
  · rw [if_pos (by rw [hnone]; rfl), quotient, if_pos hnone]
  · have hpositive : ¬ d.bound ≤ 0 := (lt_of_le_of_ne hbound (Ne.symm hnone)).not_ge
    have hdiv : (.number d.penalty / .number d.bound : Extended) = .number d.quotient := by
      rw [quotient, if_neg hnone]
      exact if_pos hnone
    rw [if_neg (by rwa [decide_eq_true_eq]), hdiv]
    exact Extended.unit_number h.quotient_mem_Icc.1 h.quotient_mem_Icc.2

end Bounded

/-- A distance in exact arithmetic with the numbers that it consists of. -/
structure ReadAs (e : Distance Extended) (d : Distance ℚ) : Prop extends d.Bounded where
  numbers : e = d.map .number
  total : 0 ≤ d.penalty ∧ d.penalty ≤ d.bound
  normalized : e.normalized = .number d.quotient
  similarity : e.similarity = .number (1 - d.quotient)
  range : 0 ≤ d.quotient ∧ d.quotient ≤ 1

theorem component_number (c : Contribution Extended) :
    ∃ k : DistanceComponent ℚ, 0 ≤ k.penalty ∧ k.penalty ≤ k.bound ∧ c.component = k.map .number := by
  cases c with
  | fraction field weight value =>
    obtain ⟨p, hp, hpenalty⟩ := Extended.nonnegative_number (Scalar.nonnegative weight * Scalar.unit value)
    obtain ⟨b, hb, hbound⟩ := Extended.nonnegative_number (Scalar.nonnegative weight)
    refine ⟨⟨field, min p b, b⟩, le_min hp hb, min_le_right _ _, ?_⟩
    simp only [Contribution.component, DistanceComponent.map, hpenalty, hbound, Extended.min_number]
  | penalty field value bound =>
    obtain ⟨p, hp, hpenalty⟩ := Extended.nonnegative_number value
    obtain ⟨b, hb, hbound⟩ := Extended.nonnegative_number bound
    refine ⟨⟨field, min p b, b⟩, le_min hp hb, min_le_right _ _, ?_⟩
    simp only [Contribution.component, DistanceComponent.map, hpenalty, hbound, Extended.min_number]

theorem foldl_number (q : ℚ) (qs : List ℚ) :
    (qs.map Extended.number).foldl (· + ·) (.number q) = .number (q + qs.sum) := by
  induction qs generalizing q with
  | nil => rw [List.sum_nil, add_zero]; rfl
  | cons p qs ih =>
    rw [List.map_cons, List.foldl_cons, Extended.add_number, ih, List.sum_cons, add_assoc]

theorem components_number (cs : List (Contribution Extended)) : ∃ ks : List (DistanceComponent ℚ),
    (∀ k ∈ ks, 0 ≤ k.penalty ∧ k.penalty ≤ k.bound) ∧ cs.map (·.component) = ks.map (·.map .number) := by
  induction cs with
  | nil => exact ⟨[], nofun, rfl⟩
  | cons c cs ih =>
    obtain ⟨k, hnonneg, hle, hcomponent⟩ := component_number c
    obtain ⟨ks, hks, hcomponents⟩ := ih
    refine ⟨k :: ks, List.forall_mem_cons.mpr ⟨⟨hnonneg, hle⟩, hks⟩, ?_⟩
    rw [List.map_cons, List.map_cons, hcomponent, hcomponents]

theorem readAs_ofContributions (cs : List (Contribution Extended)) :
    ∃ d : Distance ℚ, (ofContributions cs).ReadAs d := by
  obtain ⟨ks, hks, hcomponents⟩ := components_number cs
  have hbounded : Bounded ⟨(ks.map (·.penalty)).sum, (ks.map (·.bound)).sum, ks⟩ := ⟨hks, rfl, rfl⟩
  have htotal (f : DistanceComponent ℚ → ℚ) (g : DistanceComponent Extended → Extended)
      (hf : ∀ k : DistanceComponent ℚ, g (k.map .number) = .number (f k)) :
      (cs.map (g ·.component)).foldl (· + ·) Scalar.zero = .number (ks.map f).sum := by
    have hmap : cs.map (g ·.component) = (ks.map f).map Extended.number := by
      rw [← Function.comp_def g, ← List.map_map, hcomponents, List.map_map, List.map_map]
      exact List.map_congr_left fun k _ => hf k
    rw [hmap, Extended.zero_eq, foldl_number, zero_add]
  have hnumbers : ofContributions cs =
      map Extended.number ⟨(ks.map (·.penalty)).sum, (ks.map (·.bound)).sum, ks⟩ := by
    rw [ofContributions_eq, htotal (·.penalty) (·.penalty) fun _ => rfl, htotal (·.bound) (·.bound) fun _ => rfl,
      hcomponents]
    rfl
  have hnormalized := hbounded.normalized_number
  refine ⟨_, hbounded, hnumbers, ⟨hbounded.penalty_nonneg, hbounded.penalty_le_bound⟩, ?_, ?_,
    hbounded.quotient_mem_Icc⟩
  · rw [hnumbers, hnormalized]
  · rw [similarity, hnumbers, hnormalized, sub_eq_add_neg]
    rfl

end Distance

namespace Scoring

open Float.Model (UnpackedFloat)

variable {a b : Float}

/-- Doubles with the positive sign are sorted by their values. -/
theorem order_plus (ha : Plus a.toModel.unpack) (hb : Plus b.toModel.unpack) :
    Scalar.order a b = compare (place a.toModel.unpack) (place b.toModel.unpack) := by
  have hrank {a : Float} (ha : Plus a.toModel.unpack) :
      Scalar.bitsRank a.toBits.toNat = (place a.toModel.unpack : Int) := by
    have hword : a.toBits.toNat = place a.toModel.unpack := toNat_eq_place ha
    rw [hword]
    refine if_pos (Int.lt_of_le_of_lt (Int.ofNat_le.mpr (place_le_infinity (stored_unpack _))) ?_)
    decide
  change compare (Scalar.bitsRank a.toBits.toNat) (Scalar.bitsRank b.toBits.toNat) = _
  rw [hrank ha, hrank hb]
  obtain hlt | heq | hgt := Nat.lt_trichotomy (place a.toModel.unpack) (place b.toModel.unpack)
  · rw [Nat.compare_eq_lt.mpr hlt, Int.compare_eq_lt.mpr (Int.ofNat_lt.mpr hlt)]
  · rw [Nat.compare_eq_eq.mpr heq, Int.compare_eq_eq.mpr (congrArg Nat.cast heq)]
  · rw [Nat.compare_eq_gt.mpr hgt, Int.compare_eq_gt.mpr (Int.ofNat_lt.mpr hgt)]

theorem plus_nonnegative (a : Float) :
    Plus (Scalar.nonnegative a).toModel.unpack ∧ (Scalar.nonnegative a).isFinite = true := by
  unfold Scalar.nonnegative
  split
  next h =>
    rw [Bool.and_eq_true] at h
    exact ⟨(zero_lt_iff.mp (of_decide_eq_true h.2)).1, h.1⟩
  · exact ⟨rfl, rfl⟩

theorem plus_min (ha : Plus a.toModel.unpack) (hb : Plus b.toModel.unpack) :
    Plus (Scalar.min a b).toModel.unpack ∧ Scalar.min a b ≤ b := by
  have hself : b ≤ b := (le_iff_place (.inl hb) (.inl hb)).mpr (Nat.le_refl _)
  unfold Scalar.min
  split
  · exact ⟨hb, hself⟩
  split
  next hnone => exact absurd hb.isNaN (Bool.not_eq_false _ ▸ hnone)
  split
  · exact ⟨hb, hself⟩
  next hle => exact ⟨ha, le_of_not_lt hb.isNaN ha.isNaN fun h => hle (decide_eq_true h)⟩

theorem plus_unit (h : a.isNaN = true ∨ Plus a.toModel.unpack) : Plus (Scalar.unit a).toModel.unpack := by
  unfold Scalar.unit
  split
  · rfl
  next hnumber =>
  have hplus := h.resolve_left hnumber
  simp only [Scalar.clamp, Scalar.lt, decide_eq_true_eq, if_neg (not_lt_zero (.inl hplus))]
  split
  · rfl
  · exact hplus

theorem plus_foldl {values : List Float} (ha : Plus a.toModel.unpack)
    (h : ∀ v ∈ values, AtLeastZero v.toModel.unpack) : Plus (values.foldl (· + ·) a).toModel.unpack := by
  induction values generalizing a with
  | nil => exact ha
  | cons v values ih => exact ih (ha.add (h v (.head _))).pack fun v' hv' => h v' (.tail _ hv')

theorem plus_normalized {d : Distance Float} (hpenalty : Plus d.penalty.toModel.unpack)
    (hbound : Plus d.bound.toModel.unpack) : Plus d.normalized.toModel.unpack := by
  unfold Distance.normalized
  split
  · rfl
  · exact plus_unit (plus_div_or_isNaN hpenalty hbound).symm

theorem plus_component (c : Contribution Float) : Plus c.component.penalty.toModel.unpack ∧
    Plus c.component.bound.toModel.unpack ∧ c.component.penalty ≤ c.component.bound ∧
    c.component.bound.isFinite = true := by
  cases c with
  | fraction field weight value =>
    obtain ⟨hpenalty, -⟩ := plus_nonnegative (Scalar.nonnegative weight * Scalar.unit value)
    obtain ⟨hbound, hfinite⟩ := plus_nonnegative (Scalar.nonnegative weight)
    obtain ⟨hcut, hle⟩ := plus_min hpenalty hbound
    exact ⟨hcut, hbound, hle, hfinite⟩
  | penalty field value bound =>
    obtain ⟨hpenalty, -⟩ := plus_nonnegative value
    obtain ⟨hbound, hfinite⟩ := plus_nonnegative bound
    obtain ⟨hcut, hle⟩ := plus_min hpenalty hbound
    exact ⟨hcut, hbound, hle, hfinite⟩

end Scoring

namespace Distance

/-- A distance of doubles with contributions from zero to their bounds, and a normalized distance and a similarity
from zero to one. -/
structure Sound (d : Distance Float) : Prop where
  component : ∀ k ∈ d.components, (Scalar.zero : Float) ≤ k.penalty ∧ k.penalty ≤ k.bound ∧ k.bound.isFinite = true
  penalty : d.penalty = (d.components.map (·.penalty)).foldl (· + ·) Scalar.zero
  bound : d.bound = (d.components.map (·.bound)).foldl (· + ·) Scalar.zero
  normalized : inUnit d.normalized = true ∧ d.normalized.isNaN = false
  similarity : inUnit d.similarity = true ∧ d.similarity.isNaN = false

open Scoring in
theorem plus_ofContributions (cs : List (Contribution Float)) :
    Plus (ofContributions cs).penalty.toModel.unpack ∧ Plus (ofContributions cs).bound.toModel.unpack := by
  rw [ofContributions_eq]
  refine ⟨plus_foldl rfl fun v hv => ?_, plus_foldl rfl fun v hv => ?_⟩
  · obtain ⟨c, -, rfl⟩ := List.mem_map.mp hv
    exact .inl (plus_component c).1
  · obtain ⟨c, -, rfl⟩ := List.mem_map.mp hv
    exact .inl (plus_component c).2.1

theorem inUnit_normalized (d : Distance Float) : inUnit d.normalized = true := by
  unfold normalized
  split
  · exact Scoring.inUnit_zero
  · exact Scoring.inUnit_unit _

theorem sound_ofContributions (cs : List (Contribution Float)) : (ofContributions cs).Sound where
  component := by
    rw [ofContributions_eq]
    intro k hk
    obtain ⟨c, -, rfl⟩ := List.mem_map.mp hk
    obtain ⟨hpenalty, -, hle, hfinite⟩ := Scoring.plus_component c
    exact ⟨Scoring.zero_le_iff.mpr (.inl hpenalty), hle, hfinite⟩
  penalty := by
    rw [ofContributions_eq, List.map_map]
    rfl
  bound := by
    rw [ofContributions_eq, List.map_map]
    rfl
  normalized := ⟨inUnit_normalized _, Scoring.isNaN_of_inUnit (inUnit_normalized _)⟩
  similarity :=
    have h := Scoring.inUnit_one_sub (inUnit_normalized (ofContributions cs))
    ⟨h, Scoring.isNaN_of_inUnit h⟩

/-- Whatever is added to an empty distance, in exact arithmetic it consists of contributions from zero to their bounds
and is ordered by its penalty as a part of its bound. In doubles the contributions and what is derived from them keep
to the same ranges, and the order is the one of the normalized distances. -/
theorem ofContributions_bounded :
    (∀ cs cs' : List (Contribution Extended), ∃ d d' : Distance ℚ,
      (ofContributions cs).ReadAs d ∧ (ofContributions cs').ReadAs d' ∧
        (ofContributions cs).compare (ofContributions cs') = cmp d.quotient d'.quotient) ∧
    ∀ cs cs' : List (Contribution Float), (ofContributions cs).Sound ∧
      ((ofContributions cs).compare (ofContributions cs') = .lt ↔
        (ofContributions cs).normalized < (ofContributions cs').normalized) ∧
      ((ofContributions cs).compare (ofContributions cs') = .gt ↔
        (ofContributions cs').normalized < (ofContributions cs).normalized) := by
  constructor
  · intro cs cs'
    obtain ⟨d, hd⟩ := readAs_ofContributions cs
    obtain ⟨d', hd'⟩ := readAs_ofContributions cs'
    refine ⟨d, d', hd, hd', ?_⟩
    rw [compare, hd.normalized, hd'.normalized, Extended.order_number]
  · intro cs cs'
    have hplus (cs : List (Contribution Float)) : Scoring.Plus (ofContributions cs).normalized.toModel.unpack :=
      Scoring.plus_normalized (plus_ofContributions cs).1 (plus_ofContributions cs).2
    refine ⟨sound_ofContributions cs, ?_, ?_⟩
    · rw [compare, Scoring.order_plus (hplus cs) (hplus cs'), Nat.compare_eq_lt,
        Scoring.lt_iff_place (.inl (hplus cs)) (.inl (hplus cs'))]
    · rw [compare, Scoring.order_plus (hplus cs) (hplus cs'), Nat.compare_eq_gt,
        Scoring.lt_iff_place (.inl (hplus cs')) (.inl (hplus cs))]

/-- A penalty that is no number counts as none, a fraction that is none as the whole weight. -/
example : (ofContributions [.penalty .title .missing (.number 1), .fraction .year (.number 2) .missing,
    .penalty .album (.infinite true) (.number 1), .fraction .label (.infinite true) (.number 1),
    .penalty .artist (.number 9) (.number 4)]).normalized = Extended.number (3 / 4) := by decide +kernel

end Distance
end MusicImport
