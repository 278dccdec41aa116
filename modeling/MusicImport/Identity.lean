import MusicImport.FilePath
import MusicImport.Text.Normal

/-! What two imports have in common when one duplicates the other, and how the catalog refers to
its entries. -/
namespace MusicImport

/-- An album by its artist and title, or a single item by artist and title. -/
inductive Identity
  | album (artist title : String)
  | item (artist title : String)
deriving DecidableEq

namespace Identity

def isAlbum : Identity → Bool
  | .album _ _ => true
  | .item _ _ => false

/-- Artist and title. -/
def parts : Identity → String × String
  | .album artist title => (artist, title)
  | .item artist title => (artist, title)

/-- The character that separates the parts of a key. -/
def separator : String := "\x1f"

/-- The kind and the normal forms of both parts: duplicates have equal keys. -/
def key (i : Identity) : String :=
  (if i.isAlbum then "album" else "item") ++ separator ++ Text.normalize i.parts.1 ++
    separator ++ Text.normalize i.parts.2

def text (i : Identity) : String := i.parts.1 ++ " - " ++ i.parts.2

end Identity

/-- The row of a catalog entry. -/
inductive EntryId
  | album (id : Int)
  | item (id : Int)
deriving DecidableEq

def EntryId.text : EntryId → String
  | .album id => "album#" ++ toString id
  | .item id => "item#" ++ toString id

/-- An entry found in the catalog, with the files of all its items. -/
structure CatalogEntry where
  id : EntryId
  artist : String
  title : String
  year : Option Int
  paths : List FilePath
deriving DecidableEq

/-- An album row to be added. -/
structure NewAlbum where
  albumArtist : String
  album : String
  year : Option Int := none
  label : Option String := none
  /-- External id of the release. -/
  albumId : Option String := none
deriving DecidableEq

def NewAlbum.identity (a : NewAlbum) : Identity := .album a.albumArtist a.album

end MusicImport
