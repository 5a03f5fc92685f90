/-!
# File errors

The ways in which an operation on files can fail.
-/

namespace StoryAsm

inductive DiskError where
  /-- A part of the path does not exist. -/
  | notFound
  /-- The path to create exists already. -/
  | alreadyExists
  /-- A part of the path that should be a directory is a file. -/
  | notDirectory
  /-- The file to open is a directory. -/
  | isDirectory
  /-- The path or one of its names has too many bytes. -/
  | nameTooLong
  /-- The path has a character that no path can have. -/
  | nulInName
  /-- Any other failure of the system, in its own words. -/
  | other (text : String)
  deriving DecidableEq

def DiskError.message : DiskError → String
  | .notFound => "No such file or directory (os error 2)"
  | .alreadyExists => "File exists (os error 17)"
  | .notDirectory => "Not a directory (os error 20)"
  | .isDirectory => "Is a directory (os error 21)"
  | .nameTooLong => "File name too long (os error 36)"
  | .nulInName => "file name contained an unexpected NUL byte"
  | .other text => text

end StoryAsm
