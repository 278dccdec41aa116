import MusicImport.FilePath
import MusicImport.Text.Blank

/-! Names that every common file system accepts. -/
namespace MusicImport

/-- Characters that no file name may hold. -/
def isForbidden (c : Char) : Bool :=
  c = '<' || c = '>' || c = ':' || c = '"' || c = '/' || c = '\\' || c = '|' || c = '?' ||
    c = '*' || Text.isControl c

/-- Names of devices, in capitals. -/
def deviceNames : List String :=
  ["CON", "PRN", "AUX", "NUL", "COM1", "COM2", "COM3", "COM4", "COM5", "COM6", "COM7", "COM8",
   "COM9", "LPT1", "LPT2", "LPT3", "LPT4", "LPT5", "LPT6", "LPT7", "LPT8", "LPT9"]

/-- A device name in any case. Only ASCII letters have capitals among the letters of these
names. -/
def isDeviceName (cs : List Char) : Bool :=
  deviceNames.contains (String.ofList (cs.map Char.toUpper))

/-- Forbidden characters replaced, blanks dropped at both ends, then dots at the end. -/
def cleanName (cs : List Char) : List Char :=
  Text.dropEndWhile (· == '.')
    (Text.trimChars (cs.map fun c => if isForbidden c then '_' else c))

/-- A safe name for any text. -/
def safeNameChars (cs : List Char) : List Char :=
  let name := cleanName cs
  if isDeviceName name then '_' :: name
  else if name.isEmpty || name = ['.', '.'] then ['_']
  else name

def safeName (s : String) : String := String.ofList (safeNameChars s.toList)

/-- The path of the safe names of the pieces of a text; empty pieces are left out. -/
def safePath (cs : List Char) : FilePath :=
  .ofNames (((Text.splitChars '/' cs).filter (!·.isEmpty)).map
    fun piece => String.ofList (safeNameChars piece))

end MusicImport
