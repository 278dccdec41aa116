/-! Ways in which an operation on files fails. -/
namespace MusicImport

inductive IoError
  | notFound
  | exists
  | notDirectory
  | isDirectory
  | notEmpty
  | tooManyLinks
  /-- The directory does not let its entries be made or removed. -/
  | denied
  /-- What should be copied is no regular file. -/
  | notRegular
  /-- A text was expected and the bytes are none. -/
  | notText
  /-- The device failed in the middle of it. -/
  | device
  | other (message : String)
deriving DecidableEq

def IoError.message : IoError → String
  | .notFound => "No such file or directory (os error 2)"
  | .exists => "File exists (os error 17)"
  | .notDirectory => "Not a directory (os error 20)"
  | .isDirectory => "Is a directory (os error 21)"
  | .notEmpty => "Directory not empty (os error 39)"
  | .tooManyLinks => "Too many levels of symbolic links (os error 40)"
  | .denied => "Permission denied (os error 13)"
  | .notRegular => "the source path is neither a regular file nor a symlink to a regular file"
  | .notText => "stream did not contain valid UTF-8"
  | .device => "Input/output error (os error 5)"
  | .other message => message

end MusicImport
