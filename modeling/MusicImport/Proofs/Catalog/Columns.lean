import Mathlib.Algebra.Group.Int.Defs
import Mathlib.Algebra.Group.Nat.Defs
import MusicImport.Catalog.Columns

/-! What is written to the columns of a row comes back: a number that fits its field is among the low bits
that are read, also where a length takes the bit of the sign. -/
namespace MusicImport

theorem lowUnsigned_of_lt {bits n : Nat} (h : n < 2 ^ bits) : lowUnsigned bits n = n := by
  rw [lowUnsigned, BitVec.ofInt_natCast, BitVec.toNat_ofNat]
  exact Nat.mod_eq_of_lt h

/-- Bits are read alike with a sign and without. -/
theorem lowUnsigned_lowSigned {bits n : Nat} (h : n < 2 ^ bits) : lowUnsigned bits (lowSigned bits n) = n := by
  rw [lowUnsigned, lowSigned, BitVec.ofInt_toInt]
  exact lowUnsigned_of_lt h

theorem lowSigned_of_range {bits : Nat} {i : Int} (hlow : -2 ^ bits ≤ i) (hhigh : i < 2 ^ bits) :
    lowSigned (bits + 1) i = i := by
  rw [lowSigned, BitVec.toInt_ofInt]
  apply Int.bmod_eq_of_le
  · rw [Nat.pow_succ]
    push_cast
    omega
  · rw [Nat.pow_succ]
    push_cast
    omega

/-- A year of 32 bits. -/
def YearFits (year : Option Int) : Prop := ∀ y ∈ year, -2 ^ 31 ≤ y ∧ y < 2 ^ 31

instance (year : Option Int) : Decidable (YearFits year) := inferInstanceAs (Decidable (∀ y ∈ year, _))

/-- Numbers of 32 bits, a year of 32 bits with its sign, and a length of 64 bits. -/
structure Track.Fits (t : Track) : Prop where
  numbers : ∀ o ∈ [t.trackNumber, t.trackTotal, t.discNumber, t.discTotal], ∀ n ∈ o, n < 2 ^ 32
  year : YearFits t.year
  length : ∀ n ∈ t.length, n < 2 ^ 64

instance (t : Track) : Decidable t.Fits :=
  decidable_of_iff ((∀ o ∈ [t.trackNumber, t.trackTotal, t.discNumber, t.discTotal], ∀ n ∈ o, n < 2 ^ 32) ∧
      YearFits t.year ∧ ∀ n ∈ t.length, n < 2 ^ 64)
    ⟨fun ⟨hnumbers, hyear, hlength⟩ => ⟨hnumbers, hyear, hlength⟩, fun h => ⟨h.numbers, h.year, h.length⟩⟩

theorem map_number {o : Option Nat} (h : ∀ n ∈ o, n < 2 ^ 32) :
    (o.map Nat.cast).map (lowUnsigned 32) = o := by
  cases o with
  | none => rfl
  | some n => exact congrArg some (lowUnsigned_of_lt (h n rfl))

theorem map_year {year : Option Int} (h : YearFits year) : year.map (lowSigned 32) = year := by
  cases year with
  | none => rfl
  | some y => exact congrArg some (lowSigned_of_range (h y rfl).1 (h y rfl).2)

theorem map_length {length : Option Nat} (h : ∀ n ∈ length, n < 2 ^ 64) :
    (length.map fun n => lowSigned 64 n).map (lowUnsigned 64) = length := by
  cases length with
  | none => rfl
  | some n => exact congrArg some (lowUnsigned_lowSigned (h n rfl))

/-- A row gives its track back but for the fingerprint. -/
theorem Track.kept_eq {t : Track} (h : t.Fits) : t.kept = Catalog.stored t := by
  unfold kept ItemColumns.track columns Catalog.stored
  rw [map_year h.year, map_length h.length]
  have hnumber (o : Option Nat) (ho : o ∈ [t.trackNumber, t.trackTotal, t.discNumber, t.discTotal]) :=
    map_number (h.numbers o ho)
  rw [hnumber t.trackNumber (by simp), hnumber t.trackTotal (by simp), hnumber t.discNumber (by simp),
    hnumber t.discTotal (by simp)]

theorem NewAlbum.kept_eq {a : NewAlbum} (h : YearFits a.year) : a.kept = a := by
  unfold kept
  rw [map_year h]

/-- Texts come back whatever the numbers are, and identities are made of texts. -/
@[simp] theorem NewAlbum.kept_identity (a : NewAlbum) : a.kept.identity = a.identity := rfl

@[simp] theorem Track.kept_itemIdentity (t : Track) : t.kept.itemIdentity = t.itemIdentity := rfl

@[simp] theorem Track.stored_kept (t : Track) : Catalog.stored t.kept = t.kept := rfl

end MusicImport
