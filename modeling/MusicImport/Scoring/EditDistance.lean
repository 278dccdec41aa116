import MusicImport.Scoring.Scalar
import MusicImport.Text.Normal

/-! The number of single-character edits between two texts, and the distance of two texts
relative to the longer one. -/
namespace MusicImport

/-- The next row of the edit table: from the cell at the left, the cell above it, and the pairs
of characters with the cells above them. -/
def editRow {α : Type} [DecidableEq α] (a : α) : (left diagonal : Nat) → List (α × Nat) → List Nat
  | _, _, [] => []
  | left, diagonal, (b, above) :: rest =>
    let cell := Nat.min (Nat.min (left + 1) (above + 1)) (diagonal + if a = b then 0 else 1)
    cell :: editRow a cell above rest

/-- The rows of the edit table from a given one on; each row starts one higher. -/
def editRows {α : Type} [DecidableEq α] (ys : List α) : (first : Nat) → List Nat → List α → Nat
  | first, row, [] => row.getLast?.getD first
  | first, row, a :: as =>
    editRows ys (first + 1) (editRow a (first + 1) first (ys.zip row)) as

/-- The least number of insertions, deletions and replacements between two lists. -/
def editDistance {α : Type} [DecidableEq α] (xs ys : List α) : Nat :=
  editRows ys 0 ((List.range ys.length).map (· + 1)) xs

/-- Distance of two texts in normal form: edits relative to the longer one. -/
def textDistance {α : Type} [Scalar α] (a b : String) : α :=
  let a := Text.normalize a
  let b := Text.normalize b
  if a = b then Scalar.zero
  else
    let xs := a.toList
    let ys := b.toList
    Scalar.one -
      (Scalar.one - Scalar.ofNat (editDistance xs ys) / Scalar.ofNat (max xs.length ys.length))

end MusicImport
