import MusicImport.Decimal.Scan
import MusicImport.Text.Blank
import MusicImport.Text.Split
import MusicImport.Track

/-! Tag values as keyed texts in an order, and what they say about a track. -/
namespace MusicImport

/-- The keys that tell something about a track. -/
inductive TagKey
  | title
  | artist
  | album
  | albumArtist
  | label
  | catalogNumber
  | year
  | recordingDate
  | trackNumber
  | trackTotal
  | discNumber
  | discTotal
  | recordingId
  | releaseId
deriving DecidableEq

namespace TagKey

/-- The name that a key is written under. -/
def name : TagKey → String
  | .title => "TITLE"
  | .artist => "ARTIST"
  | .album => "ALBUM"
  | .albumArtist => "ALBUMARTIST"
  | .label => "LABEL"
  | .catalogNumber => "CATALOGNUMBER"
  | .year => "YEAR"
  | .recordingDate => "DATE"
  | .trackNumber => "TRACKNUMBER"
  | .trackTotal => "TRACKTOTAL"
  | .discNumber => "DISCNUMBER"
  | .discTotal => "DISCTOTAL"
  | .recordingId => "MUSICBRAINZ_TRACKID"
  | .releaseId => "MUSICBRAINZ_ALBUMID"

def all : List TagKey :=
  [.title, .artist, .album, .albumArtist, .label, .catalogNumber, .year, .recordingDate,
   .trackNumber, .trackTotal, .discNumber, .discTotal, .recordingId, .releaseId]

/-- Names that mean the same as the written ones. -/
def otherNames : List (String × TagKey) :=
  [("ORGANIZATION", .label), ("TOTALTRACKS", .trackTotal), ("TOTALDISCS", .discTotal)]

/-- The key of a name in any case. -/
def ofName? (name : String) : Option TagKey :=
  (all.map (fun k => (k.name, k)) ++ otherNames).lookup
    (String.ofList (name.toList.map Char.toUpper))

end TagKey

/-- A keyed text. -/
structure Comment where
  name : String
  text : String
deriving DecidableEq

def Comment.key? (c : Comment) : Option TagKey := TagKey.ofName? c.name

/-- A text without blanks around it, if anything is left. -/
def nonBlank? (s : String) : Option String :=
  let t := Text.trim s
  if t = "" then none else some t

/-- A whole number of 32 bits; a plus sign may stand in front. -/
def count? (cs : List Char) : Option Nat :=
  let ds :=
    match cs with
    | '+' :: rest => rest
    | cs => cs
  (Text.digits? ds).bind fun n => if n < word32 then some n else none

/-- The first four digits of a date that starts with at least four. -/
def yearOf? (s : String) : Option Int :=
  let ds := (Text.trimChars s.toList).takeWhile Char.isDigit
  if 4 ≤ ds.length then (Text.digits? (ds.take 4)).map Int.ofNat else none

/-- A number, or a number and a total behind a stroke. -/
def position (s : String) : Option Nat × Option Nat :=
  let cs := Text.trimChars s.toList
  let number := cs.takeWhile (· != '/')
  let total :=
    match cs.dropWhile (· != '/') with
    | [] => none
    | _ :: rest => count? (Text.trimChars rest)
  (count? (Text.trimChars number), total)

/-- Takes in one keyed text. Later texts override earlier ones, except that the first year stays
and that a total of its own goes before one behind a number. -/
def Track.addComment (t : Track) (c : Comment) : Track :=
  match c.key? with
  | some .title => { t with title := nonBlank? c.text }
  | some .artist => { t with artist := nonBlank? c.text }
  | some .album => { t with album := nonBlank? c.text }
  | some .albumArtist => { t with albumArtist := nonBlank? c.text }
  | some .label => { t with label := nonBlank? c.text }
  | some .catalogNumber => { t with catalogNumber := nonBlank? c.text }
  | some .year => { t with year := t.year.or (yearOf? c.text) }
  | some .recordingDate => { t with year := t.year.or (yearOf? c.text) }
  | some .trackNumber =>
    let (number, total) := position c.text
    { t with trackNumber := number, trackTotal := t.trackTotal.or total }
  | some .trackTotal => { t with trackTotal := count? (Text.trimChars c.text.toList) }
  | some .discNumber =>
    let (number, total) := position c.text
    { t with discNumber := number, discTotal := t.discTotal.or total }
  | some .discTotal => { t with discTotal := count? (Text.trimChars c.text.toList) }
  | some .recordingId => { t with trackId := nonBlank? c.text }
  | some .releaseId => { t with albumId := nonBlank? c.text }
  | none => t

/-- Takes in keyed texts in their order. -/
def Track.addComments (t : Track) (cs : List Comment) : Track := cs.foldl addComment t

/-- Drops what a key says and puts a new text at the end. -/
def setComment (key : TagKey) (text : String) (cs : List Comment) : List Comment :=
  cs.filter (·.key? ≠ some key) ++ [⟨key.name, text⟩]

def setSome {α : Type} (key : TagKey) (text : α → String) :
    Option α → List Comment → List Comment
  | some a, cs => setComment key (text a) cs
  | none, cs => cs

/-- A text without its first four bytes, if it has as many. -/
def afterFourBytes? (s : String) : Option String :=
  let rec drop : Nat → List Char → Option (List Char)
    | 0, cs => some cs
    | _ + 1, [] => none
    | n + 1, c :: cs => drop (n + 1 - c.utf8Size) cs
  (drop 4 s.toList).map String.ofList

/-- Sets the year: in front of an existing recording date, else under a key of its own. Years
before zero are not written. -/
def setYear (year : Option Int) (cs : List Comment) : List Comment :=
  match year with
  | none => cs
  | some y =>
    if y < 0 then cs
    else
      let date := (cs.find? (·.key? = some .recordingDate)).bind fun c => afterFourBytes? c.text
      match date with
      | some rest => setComment .recordingDate (toString y ++ rest) cs
      | none => setComment .year (toString y) cs

/-- Sets every value that is there. -/
def applyFields (f : TagFields) (cs : List Comment) : List Comment :=
  let cs := setSome .title id f.title cs
  let cs := setSome .artist id f.artist cs
  let cs := setSome .album id f.album cs
  let cs := setYear f.year cs
  let cs := setSome .trackNumber toString f.trackNumber cs
  let cs := setSome .trackTotal toString f.trackTotal cs
  let cs := setSome .discNumber toString f.discNumber cs
  let cs := setSome .discTotal toString f.discTotal cs
  let cs := setSome .albumArtist id f.albumArtist cs
  let cs := setSome .label id f.label cs
  let cs := setSome .catalogNumber id f.catalogNumber cs
  let cs := setSome .recordingId id f.trackId cs
  setSome .releaseId id f.albumId cs

end MusicImport
