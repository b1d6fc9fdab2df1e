/-!
# Refusals of the system

Each way in which the operating system, or the reading of a text, refuses a request, with the text
that a message shows for it.
-/

namespace LintSuite.Host

/-- **A refusal.** -/
inductive IoError where
  /-- There is nothing under the name. -/
  | notFound
  /-- The program file is in no known format. -/
  | unknownFormat
  /-- Access is not granted. -/
  | denied
  /-- The name is taken. -/
  | alreadyExists
  /-- A file stands where a directory must be. -/
  | notDirectory
  /-- A directory stands where a file must be. -/
  | isDirectory
  /-- A name, or the path as a whole, is too long. -/
  | nameTooLong
  /-- Links lead on and on. -/
  | linkLoop
  /-- A path with a NUL character was to be opened. -/
  | nulInPath
  /-- An argument or a variable of a command has a NUL character. -/
  | nulInArgument
  /-- The bytes of a file are no text. -/
  | notText
  /-- Any other refusal, by its text. -/
  | other (text : String)
  deriving DecidableEq, Repr

/-- The text of a refusal. -/
def IoError.message : IoError → String
  | .notFound => "No such file or directory (os error 2)"
  | .unknownFormat => "Exec format error (os error 8)"
  | .denied => "Permission denied (os error 13)"
  | .alreadyExists => "File exists (os error 17)"
  | .notDirectory => "Not a directory (os error 20)"
  | .isDirectory => "Is a directory (os error 21)"
  | .nameTooLong => "File name too long (os error 36)"
  | .linkLoop => "Too many levels of symbolic links (os error 40)"
  | .nulInPath => "file name contained an unexpected NUL byte"
  | .nulInArgument => "nul byte found in provided data"
  | .notText => "stream did not contain valid UTF-8"
  | .other text => text

end LintSuite.Host
