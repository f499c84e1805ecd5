import Provenance.Bom.Document
import Provenance.Files.Tree
/-!
Scanning dependencies: each path is read and hashed as a blob. Unreadable
paths (missing, a directory, a broken link) are skipped in their order; the
readable ones become records, sorted stably by gitoid. The document of a
scan lists the records' gitoids in that order.
-/

namespace Provenance.Store

open Files

structure DepRecord where
  path : String
  gitoid : Gitoid
  deriving DecidableEq

structure Scan where
  records : List DepRecord := []
  skipped : List String := []
  deriving DecidableEq

def hashFile (t : Tree) (alg : HashAlg) (path : String) : Except OsError Gitoid :=
  (t.readFile path).map (Gitoid.ofBlob alg)

/-- Hashes each path; records sorted stably by gitoid, skipped paths in order. -/
def scan (t : Tree) (alg : HashAlg) (paths : List String) : Scan :=
  let found := paths.map fun p => (p, hashFile t alg p)
  { records := (found.filterMap fun (p, r) => match r with
      | .ok g => some ⟨p, g⟩
      | .error _ => none).mergeSort fun a b => Gitoid.le a.gitoid b.gitoid
    skipped := found.filterMap fun (p, r) => match r with
      | .ok _ => none
      | .error _ => some p }

def build (t : Tree) (alg : HashAlg) (paths : List String) : Except StoreError (Document × Scan) :=
  let sc := scan t alg paths
  (Document.ofGitoids alg (sc.records.map (·.gitoid))).map fun d => (d, sc)

end Provenance.Store
