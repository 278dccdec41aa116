/-! Cutting texts at a character and joining the pieces again. -/
namespace MusicImport.Text

/-- The pieces between the occurrences of a character; there is always at least one. -/
def splitChars (sep : Char) : List Char → List (List Char)
  | [] => [[]]
  | c :: cs =>
    if c = sep then [] :: splitChars sep cs
    else
      match splitChars sep cs with
      | piece :: pieces => (c :: piece) :: pieces
      | [] => [[c]]

/-- The pieces with the separator between them. -/
def joinChars (sep : Char) : List (List Char) → List Char
  | [] => []
  | [piece] => piece
  | piece :: pieces => piece ++ sep :: joinChars sep pieces

theorem splitChars_ne_nil (sep : Char) (cs : List Char) : splitChars sep cs ≠ [] := by
  cases cs with
  | nil => simp [splitChars]
  | cons c cs =>
    simp only [splitChars]
    split
    · simp
    · split <;> simp

theorem joinChars_splitChars (sep : Char) (cs : List Char) :
    joinChars sep (splitChars sep cs) = cs := by
  induction cs with
  | nil => rfl
  | cons c cs ih =>
    simp only [splitChars]
    split
    · next h =>
      subst h
      cases hs : splitChars c cs with
      | nil => exact absurd hs (splitChars_ne_nil c cs)
      | cons p ps => rw [hs] at ih; simp [joinChars, ih]
    · cases hs : splitChars sep cs with
      | nil => exact absurd hs (splitChars_ne_nil sep cs)
      | cons p ps =>
        rw [hs] at ih
        cases ps with
        | nil => simpa [joinChars] using ih
        | cons q qs => simpa [joinChars] using ih

def split (sep : Char) (s : String) : List String :=
  (splitChars sep s.toList).map String.ofList

/-- Cuts at the last occurrence of a character, which belongs to neither part. -/
def cutLast? (sep : Char) (cs : List Char) : Option (List Char × List Char) :=
  let tail := cs.reverse.takeWhile (· != sep)
  match cs.reverse.dropWhile (· != sep) with
  | [] => none
  | _ :: before => some (before.reverse, tail.reverse)

/-- Cuts before the first occurrence of a word. -/
def cutAt? (word : List Char) : List Char → Option (List Char × List Char)
  | [] => if word.isEmpty then some ([], []) else none
  | c :: cs =>
    if word.isPrefixOf (c :: cs) then some ([], c :: cs)
    else (cutAt? word cs).map fun (before, rest) => (c :: before, rest)

/-- Replaces the occurrences of a word from the left, after passing over `skip` characters. -/
def replaceFrom (word value : List Char) : (skip : Nat) → List Char → List Char
  | _, [] => []
  | skip + 1, _ :: cs => replaceFrom word value skip cs
  | 0, c :: cs =>
    if word.isPrefixOf (c :: cs) then value ++ replaceFrom word value (word.length - 1) cs
    else c :: replaceFrom word value 0 cs

/-- Replaces every occurrence of a word, from the left. -/
def replaceAll (word value cs : List Char) : List Char := replaceFrom word value 0 cs

/-- Texts joined with a separator between them. -/
def joinWith (sep : String) : List String → String
  | [] => ""
  | [s] => s
  | s :: rest => s ++ sep ++ joinWith sep rest

end MusicImport.Text
