import Provenance.Gitoid.Basic
import Provenance.Text.Utf8
/-!
The gitoid of a blob: the digest of `blob <length>\0` followed by the
content, the length in decimal bytes. Checking compares the hex text of that
gitoid with an expected text exactly; verifying compares it with an expected
gitoid and fails on a different algorithm.
-/

namespace Provenance

def blobBytes (content : List UInt8) : List UInt8 :=
  Text.Utf8.encode ("blob " ++ toString content.length) ++ 0 :: content

def Gitoid.ofBlob (alg : HashAlg) (content : List UInt8) : Gitoid :=
  ⟨alg, alg.digest (blobBytes content), alg.length_digest _⟩

structure Mismatch where
  expected : String
  computed : String
  deriving DecidableEq, Repr

def Mismatch.message (m : Mismatch) : String :=
  "gitoid mismatch: expected " ++ m.expected ++ ", computed " ++ m.computed

def Gitoid.checkBlob (alg : HashAlg) (content : List UInt8) (expected : String) :
    Except Mismatch Gitoid :=
  let g := Gitoid.ofBlob alg content
  if g.toHex = expected then .ok g else .error ⟨expected, g.toHex⟩

def Gitoid.verifyBlob (alg : HashAlg) (content : List UInt8) (expected : Gitoid) : Bool :=
  expected.alg == alg && Gitoid.ofBlob alg content == expected

end Provenance
