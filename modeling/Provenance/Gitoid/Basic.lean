import Provenance.Gitoid.Alg
/-!
Gitoids: an algorithm and a digest of exactly that algorithm's length. A
gitoid is written as lowercase hex, as the URI `gitoid:blob:<alg>:<hex>`, and
split into a two-digit shard and the rest for the object store. Gitoids are
ordered by algorithm, then by digest bytes.
-/

namespace Provenance

open Text

structure Gitoid where
  alg : HashAlg
  digest : List UInt8
  length_digest : digest.length = alg.digestLen

namespace Gitoid

theorem eq_iff {g h : Gitoid} : g = h ↔ g.alg = h.alg ∧ g.digest = h.digest := by
  cases g; cases h; simp

instance : DecidableEq Gitoid := fun g h =>
  decidable_of_iff (g.alg = h.alg ∧ g.digest = h.digest) eq_iff.symm

/-- The gitoid of a digest; the length must be the algorithm's. -/
def ofDigest (alg : HashAlg) (bytes : List UInt8) : Except ValueError Gitoid :=
  if h : bytes.length = alg.digestLen then .ok ⟨alg, bytes, h⟩
  else .error (.invalidLength alg.digestLen bytes.length)

def ofHex (alg : HashAlg) (s : String) : Except ValueError Gitoid :=
  match Hex.decode s with
  | .error e => .error (.invalidHex e)
  | .ok bytes => ofDigest alg bytes

/-- The gitoid of a hex digest, the algorithm told by its length: 40 bytes
of text for SHA-1, 64 for SHA-256. -/
def parseHex (s : String) : Except ValueError Gitoid :=
  if s.utf8ByteSize = HashAlg.sha1.hexLen then ofHex .sha1 s
  else if s.utf8ByteSize = HashAlg.sha256.hexLen then ofHex .sha256 s
  else .error (.invalidLength HashAlg.sha1.hexLen s.utf8ByteSize)

def uriPrefix : String := "gitoid:blob:"

/-- Reads `gitoid:blob:<alg>:<hex>`; the algorithm name ends at the first colon. -/
def ofUri (uri : String) : Except ValueError Gitoid :=
  let p := uriPrefix.toList
  let cs := uri.toList
  if p.isPrefixOf cs then
    match (cs.drop p.length).span (· ≠ ':') with
    | (name, ':' :: hex) => do
      let alg ← HashAlg.parse (String.ofList name)
      ofHex alg (String.ofList hex)
    | _ => .error (.invalidUri uri)
  else .error (.invalidUri uri)

def toHex (g : Gitoid) : String := Hex.encode g.digest

def toUri (g : Gitoid) : String := uriPrefix ++ g.alg.name ++ ":" ++ g.toHex

def shortHex (g : Gitoid) : String := Hex.encode (g.digest.take 4)

def shardPrefix (g : Gitoid) : String := Hex.encode (g.digest.take 1)

def shardSuffix (g : Gitoid) : String := Hex.encode (g.digest.drop 1)

def debugText (g : Gitoid) : String := "Gitoid(" ++ g.alg.name ++ ":" ++ g.shortHex ++ ")"

def compareBytes : List UInt8 → List UInt8 → Ordering
  | [], [] => .eq
  | [], _ :: _ => .lt
  | _ :: _, [] => .gt
  | a :: as, b :: bs =>
    match compare a b with
    | .eq => compareBytes as bs
    | o => o

def cmp (g h : Gitoid) : Ordering :=
  match compare g.alg h.alg with
  | .eq => compareBytes g.digest h.digest
  | o => o

instance : Ord Gitoid := ⟨cmp⟩

def le (g h : Gitoid) : Bool := cmp g h != .gt

end Gitoid

end Provenance
