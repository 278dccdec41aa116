import MusicImport.Catalog.Columns

/-! Transactions on a catalog, one at a time. What a transaction writes counts once it is committed. -/
namespace MusicImport

/-- A write in a transaction. -/
inductive CatalogWrite
  | add (tracks : List Track)
  | addAlbum (album : NewAlbum) (tracks : List Track)
  | remove (id : EntryId)
deriving DecidableEq

/-- What a write is answered with. -/
inductive CatalogAnswer
  | items (ids : List Int)
  | album (id : Int)
  | removed (paths : List FilePath)
  | failed (e : ServiceFailure)
deriving DecidableEq

/-- How a transaction ends. One that is dropped is rolled back. -/
inductive TransactionEnd
  | commit
  | rollback
  | drop
deriving DecidableEq

/-- One write. After a failure the rows stay as the failed statements left them. -/
def Catalog.write (c : Catalog) : CatalogWrite → CatalogAnswer × Catalog
  | .add tracks =>
    let (ids, c) := c.add (tracks.map (·.kept))
    (.items ids, c)
  | .addAlbum album tracks =>
    let (id, c) := c.addAlbum album.kept (tracks.map (·.kept))
    (.album id, c)
  | .remove id =>
    match c.delete id with
    | (.ok paths, c) => (.removed paths, c)
    | (.error e, c) => (.failed e, c)

/-- A catalog with the transaction that writes to it. -/
structure CatalogStore where
  /-- What is committed. -/
  rows : Catalog := {}
  /-- What the transaction sees. -/
  transaction : Catalog := {}
deriving DecidableEq

namespace CatalogStore

def begin (s : CatalogStore) : CatalogStore := { s with transaction := s.rows }

def write (s : CatalogStore) (w : CatalogWrite) : CatalogAnswer × CatalogStore :=
  let (answer, transaction) := s.transaction.write w
  (answer, { s with transaction })

def finish (s : CatalogStore) : TransactionEnd → CatalogStore
  | .commit => { s with rows := s.transaction }
  | .rollback | .drop => s

end CatalogStore
end MusicImport
