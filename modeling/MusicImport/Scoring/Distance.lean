import MusicImport.Scoring.Scalar
import MusicImport.Decimal.Fixed

/-! Distances between local data and a candidate: a penalty out of a possible maximum, with the
contribution of every compared field. -/
namespace MusicImport

/-- The field that a contribution comes from. -/
inductive DistanceField
  | artist
  | album
  | title
  | year
  | mediums
  | label
  | catalogNumber
  | albumId
  | length
  | trackId
  /-- The aligned tracks, with what is missing or left over. -/
  | tracks
deriving DecidableEq

def DistanceField.name : DistanceField → String
  | .artist => "artist"
  | .album => "album"
  | .title => "title"
  | .year => "year"
  | .mediums => "mediums"
  | .label => "label"
  | .catalogNumber => "catalog_number"
  | .albumId => "album_id"
  | .length => "length"
  | .trackId => "track_id"
  | .tracks => "tracks"

def DistanceField.all : List DistanceField :=
  [.artist, .album, .title, .year, .mediums, .label, .catalogNumber, .albumId, .length,
   .trackId, .tracks]

/-- One contribution and its bound. -/
structure DistanceComponent (α : Type) where
  field : DistanceField
  penalty : α
  bound : α

/-- The sum of penalties and of their bounds, and the contributions in the order they came. -/
structure Distance (α : Type) where
  penalty : α
  bound : α
  components : List (DistanceComponent α)

namespace Distance
variable {α : Type} [Scalar α]
open Scalar

/-- Nothing compared yet. -/
def empty : Distance α := ⟨zero, zero, []⟩

/-- Adds a contribution. Bound and penalty count as zero unless finite and positive, and the
penalty is cut at its bound. -/
def addPenalty (d : Distance α) (field : DistanceField) (penalty bound : α) : Distance α :=
  let bound := nonnegative bound
  let penalty := Scalar.min (nonnegative penalty) bound
  { penalty := d.penalty + penalty
    bound := d.bound + bound
    components := d.components ++ [⟨field, penalty, bound⟩] }

/-- Adds a fraction between zero and one, times a weight. -/
def addFraction (d : Distance α) (field : DistanceField) (weight fraction : α) : Distance α :=
  let weight := nonnegative weight
  d.addPenalty field (weight * unit fraction) weight

/-- The penalty as a part of its bound; zero when nothing was compared. -/
def normalized (d : Distance α) : α :=
  if le d.bound zero then zero else unit (d.penalty / d.bound)

/-- One when everything agrees, zero when nothing does. -/
def similarity (d : Distance α) : α := one - d.normalized

/-- The penalty of one field. -/
def penaltyFor (d : Distance α) (field : DistanceField) : α :=
  ((d.components.filter (·.field = field)).map (·.penalty)).foldl (· + ·) zero

/-- Order by the normalized distance. -/
def compare (d e : Distance α) : Ordering := order d.normalized e.normalized

end Distance

/-- Percentages have one decimal. -/
def percentStyle : Decimal.FixedStyle := ⟨1, "NaN", "inf", true⟩

/-- Penalties have three decimals. -/
def penaltyStyle : Decimal.FixedStyle := ⟨3, "NaN", "inf", true⟩

/-- Similarity in percent, then the penalty out of its bound. -/
def Distance.text (d : Distance Float) : String :=
  percentStyle.text (d.similarity * 100.0) ++ "% (" ++ penaltyStyle.text d.penalty ++ "/" ++
    penaltyStyle.text d.bound ++ ")"

end MusicImport
