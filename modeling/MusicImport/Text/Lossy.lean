/-! Bytes as text where they may not be UTF-8: what cannot be read becomes replacement characters,
one for each longest beginning of a character. -/
namespace MusicImport.Text

/-- Bytes that a character with the given first byte has after it, and the range of the second
byte. A byte that starts no character has none. -/
structure LeadByte where
  trailing : Nat
  low : UInt8
  high : UInt8

def LeadByte.of? (b : UInt8) : Option LeadByte :=
  if b < 0x80 then some ⟨0, 0, 0⟩
  else if b < 0xC2 then none
  else if b < 0xE0 then some ⟨1, 0x80, 0xBF⟩
  else if b = 0xE0 then some ⟨2, 0xA0, 0xBF⟩
  else if b = 0xED then some ⟨2, 0x80, 0x9F⟩
  else if b < 0xF0 then some ⟨2, 0x80, 0xBF⟩
  else if b = 0xF0 then some ⟨3, 0x90, 0xBF⟩
  else if b < 0xF4 then some ⟨3, 0x80, 0xBF⟩
  else if b = 0xF4 then some ⟨3, 0x80, 0x8F⟩
  else none

/-- The longest beginning of a character: its bytes, and whether it is complete. -/
def takeTrailing : (count : Nat) → (low high : UInt8) → List UInt8 → List UInt8 × Bool
  | 0, _, _, _ => ([], true)
  | _ + 1, _, _, [] => ([], false)
  | n + 1, low, high, b :: bs =>
    if low ≤ b && b ≤ high then
      let (taken, complete) := takeTrailing n 0x80 0xBF bs
      (b :: taken, complete)
    else ([], false)

/-- The code point of a complete character. -/
def codePoint (lead : UInt8) (trailing : List UInt8) : Nat :=
  let bits :=
    match trailing.length with
    | 0 => lead.toNat
    | 1 => lead.toNat % 32
    | 2 => lead.toNat % 16
    | _ => lead.toNat % 8
  trailing.foldl (fun n b => n * 64 + b.toNat % 64) bits

def replacement : Char := '\uFFFD'

/-- Characters of bytes; the first bytes are passed over as parts of a character before them. -/
def lossyChars : (skip : Nat) → List UInt8 → List Char
  | _, [] => []
  | skip + 1, _ :: bs => lossyChars skip bs
  | 0, b :: bs =>
    match LeadByte.of? b with
    | none => replacement :: lossyChars 0 bs
    | some lead =>
      let (taken, complete) := takeTrailing lead.trailing lead.low lead.high bs
      (if complete then Char.ofNat (codePoint b taken) else replacement) ::
        lossyChars taken.length bs

def lossy (bytes : ByteArray) : String :=
  match String.fromUTF8? bytes with
  | some s => s
  | none => String.ofList (lossyChars 0 bytes.toList)

end MusicImport.Text
