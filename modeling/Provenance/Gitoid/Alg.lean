import Provenance.Gitoid.Error
import Provenance.Digest.Sha1
import Provenance.Digest.Sha256
/-!
The two digest algorithms a gitoid can use, with the names, lengths and
labels that go with each: the object-store namespace, the document header and
the note type. SHA-1 sorts before SHA-256.
-/

namespace Provenance

inductive HashAlg where
  | sha1
  | sha256
  deriving DecidableEq, Repr, Inhabited

namespace HashAlg

def all : List HashAlg := [sha1, sha256]

def name : HashAlg → String
  | sha1 => "sha1"
  | sha256 => "sha256"

def digestLen : HashAlg → Nat
  | sha1 => 20
  | sha256 => 32

def hexLen (a : HashAlg) : Nat := 2 * a.digestLen

def storeNamespace (a : HashAlg) : String := "gitoid_blob_" ++ a.name

def header (a : HashAlg) : String := "gitoid:blob:" ++ a.name ++ "\n"

def noteType : HashAlg → Nat
  | sha1 => 1
  | sha256 => 2

def rank : HashAlg → Nat
  | sha1 => 0
  | sha256 => 1

def digest : HashAlg → List UInt8 → List UInt8
  | sha1 => Digest.Sha1.hash
  | sha256 => Digest.Sha256.hash

def ofNamespace? (s : String) : Option HashAlg :=
  all.find? (·.storeNamespace == s)

def ofNoteType? (t : Nat) : Option HashAlg :=
  all.find? (·.noteType == t)

def ofHeader? (s : String) : Option HashAlg :=
  all.find? (·.header == s)

/-- Reads a name, ignoring ASCII case: `sha1`, `sha-1`, `sha256` or `sha-256`. -/
def parse (s : String) : Except ValueError HashAlg :=
  let low := String.ofList (s.toList.map Char.toLower)
  if low = "sha1" ∨ low = "sha-1" then .ok sha1
  else if low = "sha256" ∨ low = "sha-256" then .ok sha256
  else .error (.unknownAlgorithm s)

instance : Ord HashAlg := ⟨fun a b => compare a.rank b.rank⟩

end HashAlg

end Provenance

namespace Provenance.HashAlg

theorem length_digest (a : HashAlg) (msg : List UInt8) : (a.digest msg).length = a.digestLen := by
  cases a <;> simp [digest, digestLen, Digest.Sha1.hash, Digest.Sha256.hash, Digest.ofWords,
    Digest.wordBytes]

end Provenance.HashAlg
