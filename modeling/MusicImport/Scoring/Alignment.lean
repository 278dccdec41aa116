import MusicImport.Scoring.Scalar

/-! Alignments of two sequences that keep the order of both, and the cheapest of them. The table
is filled row by row; every cell tells the last move on the way to it, and the moves are read off
from the last cell back. -/
namespace MusicImport

/-- Pairs of a local and a candidate index, and the indices of either side that have no partner. -/
structure Alignment where
  pairs : List (Nat × Nat) := []
  unmatchedLocal : List Nat := []
  missingCandidate : List Nat := []
deriving DecidableEq

namespace Alignment

/-- Whether the pairs ascend in both coordinates. -/
def isOrderPreserving (a : Alignment) : Bool :=
  (a.pairs.zip a.pairs.tail).all fun (p, q) => p.1 < q.1 && p.2 < q.2

/-- The partner of a local index. -/
def candidateFor (a : Alignment) (i : Nat) : Option Nat :=
  (a.pairs.find? (·.1 == i)).map (·.2)

/-- One step through both sequences. -/
inductive Move
  | pair
  | skipCandidate
  | skipLocal
deriving DecidableEq

/-- The alignment that moves make from the given indices on. -/
def ofMoves : Nat → Nat → List Move → Alignment
  | _, _, [] => {}
  | i, j, .pair :: ms =>
    let a := ofMoves (i + 1) (j + 1) ms
    { a with pairs := (i, j) :: a.pairs }
  | i, j, .skipCandidate :: ms =>
    let a := ofMoves i (j + 1) ms
    { a with missingCandidate := j :: a.missingCandidate }
  | i, j, .skipLocal :: ms =>
    let a := ofMoves (i + 1) j ms
    { a with unmatchedLocal := i :: a.unmatchedLocal }

end Alignment

open MusicImport.Alignment (Move)

/-- What a track without a partner costs. -/
structure GapCosts (α : Type) where
  /-- A candidate track that is not there locally. -/
  missing : α
  /-- A local track that the candidate does not have. -/
  unmatched : α

/-- A cell of the table: the least cost of reaching it, and the last move on the way there. -/
structure AlignmentCell (α : Type) where
  cost : α
  move : Move

namespace AlignmentCell
variable {α : Type} [Scalar α]
open Scalar

/-- The cell before the first tracks. No move leads there. -/
def start : AlignmentCell α := ⟨zero, .pair⟩

def skipCandidate (gaps : GapCosts α) (c : AlignmentCell α) : AlignmentCell α :=
  ⟨c.cost + gaps.missing, .skipCandidate⟩

def skipLocal (gaps : GapCosts α) (c : AlignmentCell α) : AlignmentCell α :=
  ⟨c.cost + gaps.unmatched, .skipLocal⟩

/-- A cost that counts: zero unless positive, and a huge one in place of infinity or of none. -/
def pairCost (cost : α) : α :=
  if isFinite cost && lt zero cost then cost
  else if isNaN cost || lt zero cost then huge
  else zero

def pair (cost : α) (c : AlignmentCell α) : AlignmentCell α := ⟨c.cost + pairCost cost, .pair⟩

/-- The second cell only where it is strictly cheaper. -/
def orCheaper (a b : AlignmentCell α) : AlignmentCell α := if lt b.cost a.cost then b else a

/-- The best way into a cell from its three neighbours; ties prefer pairing, then skipping a
candidate track, then skipping a local one. -/
def best (gaps : GapCosts α) (cost : α) (diagonal left above : AlignmentCell α) :
    AlignmentCell α :=
  ((diagonal.pair cost).orCheaper (left.skipCandidate gaps)).orCheaper (above.skipLocal gaps)

/-- The cells to the right of the border cell of row zero, after the cell at the left. -/
def borderRow (gaps : GapCosts α) : Nat → AlignmentCell α → List (AlignmentCell α)
  | 0, _ => []
  | n + 1, left =>
    let cell := left.skipCandidate gaps
    cell :: borderRow gaps n cell

/-- The cells of a row from column `j` on, given the cells of the row above. -/
def nextCells (gaps : GapCosts α) (cost : Nat → α) :
    Nat → (diagonal left : AlignmentCell α) → List (AlignmentCell α) → List (AlignmentCell α)
  | _, _, _, [] => []
  | j, diagonal, left, above :: rest =>
    let cell := best gaps (cost j) diagonal left above
    cell :: nextCells gaps cost (j + 1) above cell rest

end AlignmentCell

/-- A row of the table: the border cell and the cells to its right. -/
structure AlignmentRow (α : Type) where
  border : AlignmentCell α
  cells : List (AlignmentCell α)

namespace AlignmentRow
variable {α : Type} [Scalar α]

def first (gaps : GapCosts α) (nCandidate : Nat) : AlignmentRow α :=
  ⟨.start, AlignmentCell.borderRow gaps nCandidate .start⟩

/-- The row below, for a local track with the given costs of being paired. -/
def next (gaps : GapCosts α) (cost : Nat → α) (row : AlignmentRow α) : AlignmentRow α :=
  let border := row.border.skipLocal gaps
  ⟨border, AlignmentCell.nextCells gaps cost 0 row.border border row.cells⟩

/-- A row and the `n` rows below it, the first of them for local track `i`. -/
def down (gaps : GapCosts α) (cost : Nat → Nat → α) :
    (n i : Nat) → AlignmentRow α → List (AlignmentRow α)
  | 0, _, row => [row]
  | n + 1, i, row => row :: down gaps cost n (i + 1) (row.next gaps (cost i))

/-- The cell in a column. -/
def cell? (row : AlignmentRow α) : Nat → Option (AlignmentCell α)
  | 0 => some row.border
  | j + 1 => row.cells[j]?

end AlignmentRow

/-- The rows of a table, for no local track, the first one, the first two, and so on. -/
structure AlignmentTable (α : Type) where
  rows : List (AlignmentRow α)

namespace AlignmentTable
variable {α : Type} [Scalar α]

/-- The table of all local against all candidate tracks. -/
def fill (nLocal nCandidate : Nat) (gaps : GapCosts α) (cost : Nat → Nat → α) : AlignmentTable α :=
  ⟨AlignmentRow.down gaps cost nLocal 0 (.first gaps nCandidate)⟩

/-- The cell after the first `i` local and the first `j` candidate tracks. -/
def cell? (t : AlignmentTable α) (i j : Nat) : Option (AlignmentCell α) :=
  t.rows[i]?.bind (·.cell? j)

/-- The last move on the way to a cell. -/
def move? (t : AlignmentTable α) (i j : Nat) : Option Move := (t.cell? i j).map (·.move)

/-- The moves on the way to a cell, the last one first: its own move and those on the way to the cell
that it comes from. A move that does not fit at the border counts as a skipped local track; where
there is none to skip, or no such cell, the trace is lost. -/
def traceBack (t : AlignmentTable α) (i j : Nat) : Option (List Move) :=
  if i = 0 ∧ j = 0 then some []
  else
    match t.move? i j, i, j with
    | none, _, _ => none
    | some .pair, i + 1, j + 1 => (t.traceBack i j).map (.pair :: ·)
    | some .skipCandidate, i, j + 1 => (t.traceBack i j).map (.skipCandidate :: ·)
    | some _, i + 1, j => (t.traceBack i j).map (.skipLocal :: ·)
    | some _, 0, _ => none
termination_by i + j

end AlignmentTable

/-- An alignment and the cost of its moves. -/
structure AlignmentResult (α : Type) where
  alignment : Alignment
  cost : α

/-- The cheapest alignment of local against candidate tracks, where `cost i j` is the cost of
pairing local track `i` with candidate track `j`. -/
def align {α : Type} [Scalar α] (nLocal nCandidate : Nat) (gaps : GapCosts α)
    (cost : Nat → Nat → α) : AlignmentResult α :=
  let table := AlignmentTable.fill nLocal nCandidate gaps cost
  let moves := (table.traceBack nLocal nCandidate).getD []
  ⟨Alignment.ofMoves 0 0 moves.reverse, ((table.cell? nLocal nCandidate).getD .start).cost⟩

end MusicImport
