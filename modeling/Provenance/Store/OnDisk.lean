import Provenance.Store.Disk
import Provenance.Store.Verify
/-!
An object store in a directory tree: the text of a document with gitoid `g`
is the file `<root>/objects/<namespace>/<first two hex digits>/<rest>`.
Writing walks down to the shard directory level by level, creating what is
missing, and replaces the file. Names are checked before the file system is
touched: the namespace must be one plain path component, the object name at
least three lowercase hex digits.
-/

namespace Provenance.Store

open Files

def objectsDir : String := "objects"

structure DiskStore where
  root : String

namespace DiskStore

def objectPath (s : DiskStore) (id : Gitoid) : String :=
  join (join (join (join s.root objectsDir) id.alg.storeNamespace) id.shardPrefix) id.shardSuffix

def validNamespace (ns : String) : Bool :=
  ns ≠ "" && ns ≠ "." && ns ≠ ".." && !ns.toList.contains '/' && !ns.toList.contains '\\'

def validName (name : String) : Bool :=
  name.utf8ByteSize > 2 && name.toList.all fun c => c.isDigit || ('a' ≤ c && c ≤ 'f')

def persist (s : DiskStore) (d : Disk) (ns name : String) (content : List UInt8) :
    Disk × Except StoreError String :=
  if !validNamespace ns then (d, .error (.invalidName ns))
  else if !validName name then (d, .error (.invalidName name))
  else
    let shard := String.ofList (name.toList.take 2)
    let rest := String.ofList (name.toList.drop 2)
    withLevels d (levels s.root [objectsDir, ns, shard]) fun d dir =>
      match writeLeaf d (join dir rest) content with
      | (d, .ok ()) => (d, .ok name)
      | (d, .error e) => (d, .error e)

def write (s : DiskStore) (d : Disk) (doc : Document) : Disk × Except StoreError Gitoid :=
  let id := doc.gitoid
  match s.persist d id.alg.storeNamespace id.toHex (Text.Utf8.encode doc.text) with
  | (d, .ok _) => (d, .ok id)
  | (d, .error e) => (d, .error e)

/-- The bytes stored under an id; none if the file is missing. -/
def read (s : DiskStore) (t : Tree) (id : Gitoid) : Except StoreError (Option (List UInt8)) :=
  match t.readFile (s.objectPath id) with
  | .ok b => .ok (some b)
  | .error .notFound => .ok none
  | .error e => .error (.io (.os e))

def contains (s : DiskStore) (t : Tree) (id : Gitoid) : Bool :=
  t.isFile (s.objectPath id)

def verify (s : DiskStore) (t : Tree) (id : Gitoid) : Except StoreError Document :=
  s.read t id >>= verifyBytes id

end DiskStore

end Provenance.Store
