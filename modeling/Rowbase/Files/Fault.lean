/-! # What a file system refuses

The reasons for which a file system turns a request down, with the words it uses for them. -/
namespace Rowbase.Files

/-- Why a request about a file failed. -/
inductive Fault where
  /-- No such file, or a directory on the way to it is missing. -/
  | notFound
  /-- Something has the name already. -/
  | alreadyExists
  /-- A file stands where the path needs a directory. -/
  | notDirectory
  /-- A directory has the name of the file. -/
  | isDirectory
  /-- The path or one of its names is too long. -/
  | nameTooLong
  /-- The path holds a NUL character. -/
  | nulInName
  /-- The file ends before the bytes that were asked for. -/
  | endOfFile
deriving DecidableEq

/-- The words for a fault. -/
def Fault.message : Fault → String
  | notFound => "No such file or directory (os error 2)"
  | alreadyExists => "File exists (os error 17)"
  | notDirectory => "Not a directory (os error 20)"
  | isDirectory => "Is a directory (os error 21)"
  | nameTooLong => "File name too long (os error 36)"
  | nulInName => "file name contained an unexpected NUL byte"
  | endOfFile => "failed to fill whole buffer"

end Rowbase.Files
