import Provenance.Gitoid.Basic
import Provenance.Files.Error
import Provenance.Text.Utf8
/-!
What can go wrong when building, reading, storing or decoding BOM documents
and notes, each cause with its wording.
-/

namespace Provenance

open Files

inductive DocumentFault where
  | unknownHeader
  | missingTrailingNewline
  | notBlobEntry (line : Nat)
  | unsorted
  | notCanonical
  | notUtf8 (e : Text.Utf8.Utf8Error)
  deriving DecidableEq, Repr

def DocumentFault.message : DocumentFault → String
  | .unknownHeader => "unknown header"
  | .missingTrailingNewline => "missing trailing newline"
  | .notBlobEntry n => "line " ++ toString n ++ " is not a blob entry"
  | .unsorted => "entries are not sorted"
  | .notCanonical => "text is not canonical"
  | .notUtf8 e => "not UTF-8: " ++ e.message

inductive NoteFault where
  | short (len : Nat)
  | unknownType (t : Nat)
  | descriptorSize (alg : HashAlg) (size : Nat)
  | truncated
  | wrongOwner
  deriving DecidableEq, Repr

def NoteFault.message : NoteFault → String
  | .short n => toString n ++ " bytes is shorter than a note header"
  | .unknownType t => "unknown note type " ++ toString t
  | .descriptorSize a d => a.name ++ " note carries " ++ toString d ++ " bytes"
  | .truncated => "note is truncated"
  | .wrongOwner => "owner is not OMNIBOR"

inductive StoreError where
  | notFound (id : Gitoid)
  | hashMismatch (id : Gitoid) (computed : String)
  | directory (path : String) (e : OsError)
  | write (path : String) (e : OsError)
  | invalidName (name : String)
  | algorithmMismatch (expected actual : HashAlg)
  | malformedDocument (f : DocumentFault)
  | malformedNote (f : NoteFault)
  | value (e : ValueError)
  | io (e : IoError)
  deriving DecidableEq

namespace StoreError

def message : StoreError → String
  | .notFound id => "object not found: " ++ id.toHex
  | .hashMismatch id c => "hash mismatch for " ++ id.toHex ++ ": computed " ++ c
  | .directory p e => "cannot open or create directory " ++ p ++ ": " ++ e.message
  | .write p e => "cannot write " ++ p ++ ": " ++ e.message
  | .invalidName n => "invalid object name: " ++ Text.Escape.quoteString n
  | .algorithmMismatch e a => "algorithm mismatch: document is " ++ e.name ++ ", entry is " ++ a.name
  | .malformedDocument f => "malformed BOM document: " ++ f.message
  | .malformedNote f => "malformed OmniBOR note: " ++ f.message
  | .value e => e.message
  | .io e => "I/O error: " ++ e.message

def kind : StoreError → String
  | .notFound _ => "NotFound"
  | .hashMismatch _ _ => "HashMismatch"
  | .directory _ _ => "Directory"
  | .write _ _ => "Write"
  | .invalidName _ => "InvalidName"
  | .algorithmMismatch _ _ => "AlgorithmMismatch"
  | .malformedDocument _ => "MalformedDocument"
  | .malformedNote _ => "MalformedNote"
  | .value e => e.kind
  | .io _ => "Io"

def causes : StoreError → List String
  | .directory _ e => [e.message]
  | .write _ e => [e.message]
  | .io e => [e.message]
  | _ => []

end StoreError

end Provenance
