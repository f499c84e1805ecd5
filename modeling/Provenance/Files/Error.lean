/-!
Errors of the file system and of reading a byte stream, with the system's
wording: the text of the error, then its number.
-/

namespace Provenance.Files

inductive OsError where
  | notFound
  | notADirectory
  | isADirectory
  | alreadyExists
  | loop
  deriving DecidableEq, Repr

namespace OsError

def code : OsError → Nat
  | notFound => 2
  | notADirectory => 20
  | isADirectory => 21
  | alreadyExists => 17
  | loop => 40

def description : OsError → String
  | notFound => "No such file or directory"
  | notADirectory => "Not a directory"
  | isADirectory => "Is a directory"
  | alreadyExists => "File exists"
  | loop => "Too many levels of symbolic links"

def kindName : OsError → String
  | notFound => "NotFound"
  | notADirectory => "NotADirectory"
  | isADirectory => "IsADirectory"
  | alreadyExists => "AlreadyExists"
  | loop => "FilesystemLoop"

def message (e : OsError) : String :=
  e.description ++ " (os error " ++ toString e.code ++ ")"

end OsError

/-- An input or output error: one of the file system, or a byte stream that
ended before the bytes a reader needed. -/
inductive IoError where
  | os (e : OsError)
  | unexpectedEnd
  | invalidData
  deriving DecidableEq, Repr

def IoError.message : IoError → String
  | .os e => e.message
  | .unexpectedEnd => "failed to fill whole buffer"
  | .invalidData => "stream did not contain valid UTF-8"

end Provenance.Files
