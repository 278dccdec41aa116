import MusicImport.Files.Tree
import MusicImport.Json.Parser
import MusicImport.Json.Printer
import MusicImport.Wire.Catalog

/-! Where a catalog is kept, as an address tells it: in a file, or nowhere. In an address a percent
sign and two hexadecimal digits stand for a byte. -/
namespace MusicImport

namespace Text

/-- The byte that two hexadecimal digits name. -/
def hexByte? (a b : UInt8) : Option UInt8 := do
  return .ofNat (16 * (← Json.hexDigit? (Char.ofUInt8 a)) + (← Json.hexDigit? (Char.ofUInt8 b)))

/-- Bytes without percent encoding. A percent sign that no digits follow stands for itself. -/
def percentBytes : List UInt8 → List UInt8
  | b :: x :: y :: rest =>
    match if b = 0x25 then hexByte? x y else none with
    | some byte => byte :: percentBytes rest
    | none => b :: percentBytes (x :: y :: rest)
  | bs => bs

/-- A text without percent encoding, unless what comes out is no text. -/
def percentDecode? (s : String) : Option String :=
  String.fromUTF8? ⟨(percentBytes s.toUTF8.toList).toArray⟩

/-- A text without any of the given words at its start. -/
def dropStarts (word : List Char) (cs : List Char) : List Char :=
  go cs.length cs
where
  go : Nat → List Char → List Char
    | 0, cs => cs
    | n + 1, cs => if word.isPrefixOf cs then go n (cs.drop word.length) else cs

end Text

/-- A place for a catalog. -/
inductive CatalogLocation
  /-- The catalog starts empty and is lost in the end. -/
  | memory
  | file (path : FilePath) (readOnly : Bool)

/-- What the part of an address behind the question mark asks for. -/
inductive LocationOption
  | memory
  | readOnly
  /-- What is done anyway. -/
  | usual
deriving DecidableEq

namespace LocationOption

def ofPair? (name value : String) : Option LocationOption :=
  let choices : List (String × List (String × LocationOption)) :=
    [("mode", [("ro", .readOnly), ("rw", .usual), ("rwc", .usual), ("memory", .memory)]),
     ("cache", [("private", .usual), ("shared", .usual)]),
     ("immutable", [("true", .readOnly), ("1", .readOnly), ("false", .usual), ("0", .usual)]),
     ("vfs", [("unix", .usual), ("unix-dotfile", .usual), ("unix-excl", .usual),
       ("unix-none", .usual)])]
  (choices.lookup name).bind (·.lookup value)

/-- Decodes one side of a pair, in which a plus sign stands for a blank. -/
def decode? (cs : List Char) : Option String :=
  Text.percentDecode? (String.ofList (cs.map fun c => if c = '+' then ' ' else c))

/-- The options of a text with pairs between ampersands. -/
def ofText? (cs : List Char) : Option (List LocationOption) :=
  ((Text.splitChars '&' cs).filter (!·.isEmpty)).mapM fun pair => do
    let name ← decode? (pair.takeWhile (· != '='))
    let value ← decode? ((pair.dropWhile (· != '=')).drop 1)
    ofPair? name value

end LocationOption

/-- The path in a name that may be a file URI of this host. -/
def uriPath? (name : String) : Option String :=
  let decode (cs : List Char) := Text.percentDecode? (String.ofList (cs.takeWhile (· != '#')))
  match name.toList with
  | 'f' :: 'i' :: 'l' :: 'e' :: ':' :: '/' :: '/' :: rest =>
    let host := String.ofList (rest.takeWhile (· != '/'))
    if host = "" || host = "localhost" then decode (rest.dropWhile (· != '/')) else none
  | 'f' :: 'i' :: 'l' :: 'e' :: ':' :: rest => decode rest
  | _ => some name

namespace CatalogLocation

/-- The place that an address names. -/
def ofUrl? (url : String) : Option CatalogLocation := do
  let rest := Text.dropStarts "sqlite:".toList (Text.dropStarts "sqlite://".toList url.toList)
  let name ← Text.percentDecode? (String.ofList (rest.takeWhile (· != '?')))
  let options ← LocationOption.ofText? ((rest.dropWhile (· != '?')).drop 1)
  let path ← uriPath? name
  let readOnly := options.contains .readOnly
  if path.toList.contains '\x00' then none
  else if path = "" || path = ":memory:" || options.contains .memory then
    if readOnly then none else some .memory
  else some (.file ⟨path⟩ readOnly)

end CatalogLocation

namespace Catalog

/-- The line that a catalog's file starts with. -/
def fileStart : String := "cratedig catalog 1\n"

def fileText (c : Catalog) : String := fileStart ++ c.toJson.compact ++ "\n"

/-- Reads what `fileText` writes. An empty file holds an empty catalog. -/
def ofFileText? (s : String) : Option Catalog :=
  if s = "" then some {}
  else
    match Json.expect? fileStart.toList s.toList with
    | some rest => (Json.parse? (String.ofList rest)).bind ofJson?
    | none => none

end Catalog

namespace CatalogLocation

/-- Puts a catalog in its place, where that can be written to. -/
def save? (l : CatalogLocation) (c : Catalog) (t : FileTree) : Option FileTree :=
  match l with
  | .memory | .file _ true => some t
  | .file p false => (t.write p c.fileText.toUTF8).toOption

/-- The catalog in a place. One that is not there yet is made, in a directory that is. -/
def load? (l : CatalogLocation) (t : FileTree) : Option Catalog :=
  match l with
  | .memory => some {}
  | .file p readOnly =>
    match t.read p with
    | .ok content =>
      if readOnly && content.isEmpty then none
      else (String.fromUTF8? content).bind Catalog.ofFileText?
    | .error .notFound => if readOnly then none else some {}
    | .error _ => none

/-- Opens a place: its catalog, and the files with the place made. -/
def open? (l : CatalogLocation) (t : FileTree) : Option (Catalog × FileTree) := do
  let c ← l.load? t
  return (c, ← l.save? c t)

end CatalogLocation
end MusicImport
