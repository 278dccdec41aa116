import MusicImport.Library.SafeName
import MusicImport.Text.Lowercase
import MusicImport.Track

/-! Where a file goes in the library: templates with placeholders for tag values. -/
namespace MusicImport

/-- The values that a template can ask for. -/
inductive Placeholder
  | albumArtist
  | artist
  | album
  | title
  | trackNo
  | discNo
  | year
  | label
deriving DecidableEq

namespace Placeholder

/-- In the order in which they are filled in. -/
def all : List Placeholder :=
  [.albumArtist, .artist, .album, .title, .trackNo, .discNo, .year, .label]

def name : Placeholder → String
  | .albumArtist => "AlbumArtist"
  | .artist => "Artist"
  | .album => "Album"
  | .title => "Title"
  | .trackNo => "TrackNo"
  | .discNo => "DiscNo"
  | .year => "Year"
  | .label => "Label"

/-- The placeholder as it stands in a template: its name in braces. -/
def mark (p : Placeholder) : List Char := '{' :: (p.name.toList ++ ['}'])

/-- The value of a file, or what stands for a missing one. -/
def value (f : TagFields) (source : FilePath) : Placeholder → String
  | .albumArtist => (f.albumArtist.or f.artist).getD "Unknown Artist"
  | .artist => f.artist.getD "Unknown Artist"
  | .album =>
    match f.album.map Text.trim with
    | some text => if text = "" then "Unknown Album" else text
    | none => "Unknown Album"
  | .title => f.title.getD (source.stem?.getD "Unknown")
  | .trackNo => (f.trackNumber.map Text.twoDigits).getD "00"
  | .discNo => toString (f.discNumber.getD 1)
  | .year => (f.year.map fun y => toString y).getD "0000"
  | .label => f.label.getD "Unknown Label"

/-- A value with its separators replaced, so that it adds no directory. -/
def flatValue (f : TagFields) (source : FilePath) (p : Placeholder) : List Char :=
  (p.value f source).toList.map fun c => if c = '/' || c = '\\' then '_' else c

end Placeholder

/-- Placeholders filled in one after the other. -/
def fillPlaceholders (f : TagFields) (source : FilePath) (template : List Char) : List Char :=
  Placeholder.all.foldl
    (fun cs p => Text.replaceAll p.mark (p.flatValue f source) cs) template

/-- Album artists that stand for many. -/
def compilationNames : List String :=
  ["various artists", "various", "va", "compilation", "soundtrack", "ost"]

/-- Whether the album artist marks a compilation, alone or with more words behind. -/
def isCompilation (f : TagFields) : Bool :=
  let name := (Text.lowercase (f.albumArtist.getD "")).toList
  compilationNames.any fun n => name == n.toList || (n.toList ++ [' ']).isPrefixOf name

/-- A text cut behind its last separator. -/
def cutDirectory (cs : List Char) : List Char × List Char :=
  match Text.cutLast? '/' cs with
  | some (before, file) => (before ++ ['/'], file)
  | none => ([], cs)

/-- Puts a directory for the disc in front of the file name. -/
def insertDisc (disc : Nat) (cs : List Char) : List Char :=
  let (before, file) := cutDirectory cs
  before ++ ("Disc " ++ toString disc).toList ++ '/' :: file

/-- Puts the artist into the file name, behind a number if it starts with one. -/
def insertArtist (artist : String) (cs : List Char) : List Char :=
  let (before, file) := cutDirectory cs
  match Text.cutAt? " - ".toList file with
  | some (number, rest) =>
    before ++ number ++ " - ".toList ++ artist.toList ++ " - ".toList ++ rest.drop 3
  | none => before ++ artist.toList ++ " - ".toList ++ file

/-- A template for files of albums. Other files have one of their own. -/
structure PathTemplate where
  template : String
  discFolder : Bool := true

namespace PathTemplate

def standard : String := "\x7bAlbumArtist\x7d/\x7bYear\x7d - \x7bAlbum\x7d/\x7bTrackNo\x7d - \x7bTitle\x7d"

def simple : String := "\x7bAlbumArtist\x7d/\x7bAlbum\x7d/\x7bTrackNo\x7d - \x7bTitle\x7d"

def labelFirst : String :=
  "\x7bLabel\x7d/\x7bAlbumArtist\x7d/\x7bAlbum\x7d/\x7bTrackNo\x7d - \x7bTitle\x7d"

def singleton : String := "\x7bArtist\x7d/Singles/\x7bTitle\x7d"

/-- The templates that go by a name, in any case. -/
def preset? (name : String) : Option String :=
  let name := Text.asciiLowercase name
  if name = "audiophile" || name = "default" then some standard
  else if name = "simple" then some simple
  else if name = "label" || name = "label_first" then some labelFirst
  else none

/-- The template that a setting stands for, by name or literally. -/
def ofSetting (setting : String) : PathTemplate := ⟨(preset? setting).getD setting, true⟩

/-- Files with a disc beyond the first, or of several discs. -/
def isMultiDisc (f : TagFields) : Bool :=
  f.discTotal.any (1 < ·) || f.discNumber.any (1 < ·)

/-- The text of the path before names are made safe. -/
def expand (t : PathTemplate) (f : TagFields) (source : FilePath) : List Char :=
  let isAlbum := f.album.isSome
  let filled := fillPlaceholders f source (if isAlbum then t.template else singleton).toList
  let filled :=
    if t.discFolder && isAlbum && isMultiDisc f then insertDisc (f.discNumber.getD 1) filled
    else filled
  if isAlbum && isCompilation f then insertArtist (f.artist.getD "Unknown Artist") filled
  else filled

/-- The path of a file below the library, with the extension of its source. -/
def resolve (t : PathTemplate) (f : TagFields) (source : FilePath) : FilePath :=
  safePath (t.expand f source ++ '.' :: (source.extension?.getD "flac").toList)

end PathTemplate

/-- What decides where a file goes: a template, or one path for every file. -/
inductive Layout
  | template (t : PathTemplate)
  | fixed (path : FilePath)

def Layout.place (l : Layout) (f : TagFields) (source : FilePath) : FilePath :=
  match l with
  | .template t => t.resolve f source
  | .fixed path => path

end MusicImport
