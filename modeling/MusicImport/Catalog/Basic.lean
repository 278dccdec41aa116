import MusicImport.Failure
import MusicImport.Identity
import MusicImport.Text.Blank
import MusicImport.Track

/-! The catalog: album rows and item rows, where the items of an album refer to its row. Ids
count up and are not used again once they were committed. -/
namespace MusicImport

structure AlbumRow where
  id : Int
  album : NewAlbum
  identityKey : String
deriving DecidableEq

structure ItemRow where
  id : Int
  /-- The album that the item belongs to; single items have none. -/
  album : Option Int
  identityKey : String
  track : Track
deriving DecidableEq

/-- Rows in order of their ids, and the last id given of each kind. A transaction works on a copy,
which takes the catalog's place when it is committed. -/
structure Catalog where
  albums : List AlbumRow := []
  items : List ItemRow := []
  lastAlbum : Int := 0
  lastItem : Int := 0
deriving DecidableEq

/-- The identity that a track has as a single item. -/
def Track.itemIdentity (t : Track) : Identity := .item (t.artist.getD "") t.displayTitle

namespace Catalog

/-- What is stored of a track: everything but its fingerprint. -/
def stored (t : Track) : Track := { t with fingerprint := none }

/-- Adds one item. -/
def addItem (c : Catalog) (album : Option Int) (t : Track) : Catalog :=
  let id := c.lastItem + 1
  { c with
    items := c.items ++ [⟨id, album, t.itemIdentity.key, stored t⟩]
    lastItem := id }

/-- Adds single items and tells their ids. -/
def add (c : Catalog) (tracks : List Track) : List Int × Catalog :=
  (tracks.mapIdx fun i _ => c.lastItem + 1 + i, tracks.foldl (fun c t => c.addItem none t) c)

/-- Adds an album with its items and tells its id. -/
def addAlbum (c : Catalog) (album : NewAlbum) (tracks : List Track) : Int × Catalog :=
  let id := c.lastAlbum + 1
  let withRow :=
    { c with albums := c.albums ++ [⟨id, album, album.identity.key⟩], lastAlbum := id }
  (id, tracks.foldl (fun c t => c.addItem (some id) t) withRow)

/-- Deletes an entry and tells the paths of its files, in order of the rows. The items of an album are gone
before it shows whether there is an album. -/
def delete (c : Catalog) : EntryId → Except ServiceFailure (List FilePath) × Catalog
  | .album id =>
    let paths := (c.items.filter (·.album = some id)).map (·.track.path)
    let left :=
      { c with items := c.items.filter (·.album ≠ some id), albums := c.albums.filter (·.id ≠ id) }
    if c.albums.any (·.id = id) then (.ok paths, left)
    else (.error (.notFound "Album" (toString id)), left)
  | .item id =>
    match c.items.find? (·.id = id) with
    | some row => (.ok [row.track.path], { c with items := c.items.filter (·.id ≠ id) })
    | none => (.error (.notFound "Item" (toString id)), c)

/-- Removes an entry in a transaction that is given up where there is none. -/
def remove (c : Catalog) (id : EntryId) : Except ServiceFailure (List FilePath × Catalog) :=
  match c.delete id with
  | (.ok paths, c) => .ok (paths, c)
  | (.error e, _) => .error e

/-- Absent numbers before all others. -/
def compareNumbers : Option Nat → Option Nat → Ordering
  | none, none => .eq
  | none, some _ => .lt
  | some _, none => .gt
  | some a, some b => compare a b

/-- By disc, then by track, then by id. -/
def compareItems (a b : ItemRow) : Ordering :=
  ((compareNumbers a.track.discNumber b.track.discNumber).then
    (compareNumbers a.track.trackNumber b.track.trackNumber)).then (compare a.id b.id)

/-- The tracks of an album in their order. -/
def albumItems (c : Catalog) (id : Int) : List Track :=
  ((c.items.filter (·.album = some id)).mergeSort fun a b => compareItems a b != .gt).map
    (·.track)

def item? (c : Catalog) (id : Int) : Option Track :=
  (c.items.find? (·.id = id)).map (·.track)

/-- The tracks of an entry. -/
def tracksOf (c : Catalog) : EntryId → List Track
  | .album id => c.albumItems id
  | .item id => (c.item? id).toList

/-- The entries with the key of an identity: albums, or items without an album. -/
def findDuplicates (c : Catalog) (identity : Identity) : List CatalogEntry :=
  if identity.isAlbum then
    (c.albums.filter (·.identityKey = identity.key)).map fun row =>
      { id := .album row.id, artist := row.album.albumArtist, title := row.album.album
        year := row.album.year, paths := (c.albumItems row.id).map (·.path) }
  else
    (c.items.filter fun row => row.identityKey = identity.key && row.album.isNone).map fun row =>
      { id := .item row.id, artist := row.track.artist.getD "", title := row.track.title.getD ""
        year := row.track.year, paths := [row.track.path] }

/-- A directory as the beginning of the paths in it. -/
def directoryStart (dir : FilePath) : List Char :=
  Text.dropEndWhile (· == '/') dir.text.toList ++ ['/']

/-- The paths of items anywhere below a directory, in order. No path has a null character, where the text of a
query would end. -/
def pathsUnder (c : Catalog) (dir : FilePath) : List FilePath :=
  ((c.items.map (·.track.path)).filter fun p =>
    (directoryStart dir).isPrefixOf p.text.toList).mergeSort fun a b => a.text ≤ b.text

end Catalog
end MusicImport
