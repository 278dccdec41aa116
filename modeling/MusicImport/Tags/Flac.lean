import MusicImport.Tags.VorbisComment

/-! FLAC files: a mark, metadata blocks, and sound. The first block tells the sampling rate and
the number of samples, another one holds the keyed texts. -/
namespace MusicImport

/-- A metadata block by its kind. -/
structure FlacBlock where
  kind : Nat
  body : List UInt8
deriving DecidableEq

/-- The blocks of a file and the bytes behind them. -/
structure FlacFile where
  blocks : List FlacBlock
  sound : List UInt8
deriving DecidableEq

namespace FlacFile

/-- The letters that a file starts with. -/
def mark : List UInt8 := [0x66, 0x4C, 0x61, 0x43]

def streamInfoKind : Nat := 0

def commentKind : Nat := 4

/-- A number of bytes, most significant first. -/
def bigEndian (bytes : List UInt8) : Nat := bytes.foldl (fun n b => n * 256 + b.toNat) 0

/-- A number of bytes, least significant first. -/
def littleEndian (bytes : List UInt8) : Nat := bigEndian bytes.reverse

def toLittleEndian (count n : Nat) : List UInt8 :=
  (List.range count).map fun i => UInt8.ofNat (n / Nat.pow 256 i % 256)

def toBigEndian (count n : Nat) : List UInt8 := (toLittleEndian count n).reverse

/-- Splits off a number of bytes, if there are as many. -/
def split? (n : Nat) (bytes : List UInt8) : Option (List UInt8 × List UInt8) :=
  if n ≤ bytes.length then some (bytes.take n, bytes.drop n) else none

/-- The blocks up to the one marked as last, and what follows. The fuel bounds their number. -/
def readBlocks : Nat → List UInt8 → Option (List FlacBlock × List UInt8)
  | 0, _ => none
  | fuel + 1, bytes =>
    match bytes with
    | head :: a :: b :: c :: rest =>
      match split? (bigEndian [a, b, c]) rest with
      | none => none
      | some (body, rest) =>
        let block : FlacBlock := ⟨head.toNat % 128, body⟩
        if 128 ≤ head.toNat then some ([block], rest)
        else (readBlocks fuel rest).map fun (blocks, sound) => (block :: blocks, sound)
    | _ => none

def decode? (content : ByteArray) : Option FlacFile :=
  let bytes := content.toList
  match split? 4 bytes with
  | some (start, rest) =>
    if start = mark then
      match readBlocks (rest.length + 1) rest with
      | some (block :: blocks, sound) =>
        if block.kind = streamInfoKind && block.body.length = 34 then
          some ⟨block :: blocks, sound⟩
        else none
      | _ => none
    else none
  | none => none

def writeBlocks : List FlacBlock → List UInt8
  | [] => []
  | [b] => UInt8.ofNat (128 + b.kind) :: (toBigEndian 3 b.body.length ++ b.body)
  | b :: c :: bs => UInt8.ofNat b.kind :: (toBigEndian 3 b.body.length ++ b.body) ++
      writeBlocks (c :: bs)

/-- Whether the length of every block can be written in three bytes. -/
def fits (f : FlacFile) : Bool := f.blocks.all (·.body.length < Nat.pow 256 3)

def encode (f : FlacFile) : ByteArray :=
  ⟨(mark ++ writeBlocks f.blocks ++ f.sound).toArray⟩

/-- The first block of a file with the given sampling rate and number of samples. -/
def streamInfo (rate samples : Nat) : FlacBlock :=
  let packed := ((rate * 8 + 1) * 32 + 15) * Nat.pow 2 36 + samples % Nat.pow 2 36
  ⟨streamInfoKind, toBigEndian 2 4096 ++ toBigEndian 2 4096 ++ toBigEndian 3 0 ++
    toBigEndian 3 0 ++ toBigEndian 8 packed ++ List.replicate 16 0⟩

/-- The length in milliseconds, rounded down. -/
def length (f : FlacFile) : Nat :=
  match f.blocks with
  | info :: _ =>
    let packed := bigEndian ((info.body.drop 10).take 8)
    let rate := packed / Nat.pow 2 44
    let samples := packed % Nat.pow 2 36
    if rate = 0 then 0 else samples * 1000 / rate
  | [] => 0

/-- The text behind its length in four bytes. -/
def readText? (bytes : List UInt8) : Option (String × List UInt8) := do
  let (size, rest) ← split? 4 bytes
  let (text, rest) ← split? (littleEndian size) rest
  return (← String.fromUTF8? ⟨text.toArray⟩, rest)

def writeText (s : String) : List UInt8 :=
  let bytes := s.toUTF8.toList
  toLittleEndian 4 bytes.length ++ bytes

/-- A keyed text cut at its first equals sign. -/
def commentOf? (s : String) : Option Comment :=
  match s.toList.dropWhile (· != '=') with
  | _ :: text => some ⟨String.ofList (s.toList.takeWhile (· != '=')), String.ofList text⟩
  | [] => none

def readComments? : Nat → List UInt8 → Option (List Comment)
  | 0, _ => some []
  | n + 1, bytes => do
    let (text, rest) ← readText? bytes
    let others ← readComments? n rest
    return (commentOf? text).toList ++ others

/-- The keyed texts of a block, behind the name of the program that wrote it. -/
def commentsOf? (body : List UInt8) : Option (List Comment) := do
  let (_, rest) ← readText? body
  let (count, rest) ← split? 4 rest
  readComments? (littleEndian count) rest

def commentBlock (vendor : String) (cs : List Comment) : FlacBlock :=
  ⟨commentKind, writeText vendor ++ toLittleEndian 4 cs.length ++
    cs.flatMap fun c => writeText (c.name ++ "=" ++ c.text)⟩

/-- The keyed texts of a file. -/
def comments (f : FlacFile) : List Comment :=
  ((f.blocks.find? (·.kind = commentKind)).bind (commentsOf? ·.body)).getD []

/-- The file with other keyed texts, in a block behind all others if there was none. -/
def withComments (f : FlacFile) (cs : List Comment) : FlacFile :=
  let block := commentBlock "" cs
  if f.blocks.any (·.kind = commentKind) then
    { f with blocks := f.blocks.map fun b => if b.kind = commentKind then block else b }
  else { f with blocks := f.blocks ++ [block] }

/-- A file without sound. -/
def silent (rate samples : Nat) (cs : Option (List Comment)) : FlacFile :=
  ⟨streamInfo rate samples :: (cs.map (commentBlock "")).toList, []⟩

/-- What the file says about its track. -/
def track (f : FlacFile) (path : FilePath) : Track :=
  ({ path, length := some f.length } : Track).addComments f.comments

end FlacFile
end MusicImport
