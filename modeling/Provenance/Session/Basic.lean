import Provenance.Session.Error
import Provenance.Session.Report
import Provenance.Ledger.Snapshot
import Provenance.Store.OnDisk
import Provenance.Store.Memory
import Provenance.Store.Metadata
/-!
A recording session: a configuration, the ledger of one compilation, and an
object store, either in the file system at the configured root or in memory.
Finishing records, for each configured algorithm in turn, the BOM document of
the readable dependencies, stores it, and writes the metadata of the build
output; a failure of one algorithm is reported in its entry and does not stop
the others.
-/

namespace Provenance

open Store

inductive ObjectStore where
  | disk (s : DiskStore)
  | memory (s : MemoryStore)

namespace ObjectStore

def write (s : ObjectStore) (d : Disk) (doc : Document) :
    ObjectStore × Disk × Except StoreError Gitoid :=
  match s with
  | .disk ds => let (d, r) := ds.write d doc; (s, d, r)
  | .memory ms => let (ms, id) := ms.write doc; (.memory ms, d, .ok id)

def location (s : ObjectStore) (id : Gitoid) : Option String :=
  match s with
  | .disk ds => some (ds.objectPath id)
  | .memory _ => none

def verify (s : ObjectStore) (t : Files.Tree) (id : Gitoid) : Except StoreError Document :=
  match s with
  | .disk ds => ds.verify t id
  | .memory ms => ms.verify id

end ObjectStore

structure Session where
  config : Config
  ledger : Ledger
  store : ObjectStore

namespace Session

/-- A session with a given store; the configuration is checked and its vpath
specs go into the ledger. -/
def withStore (c : Config) (s : ObjectStore) : Except SessionError Session :=
  match c.validate with
  | .error e => .error (.config e)
  | .ok () => .ok { config := c, ledger := c.vpath.foldl Ledger.addVpath {}, store := s }

def new (c : Config) : Except SessionError Session :=
  withStore c (.disk ⟨c.root⟩)

def makeRules (s : Session) : String := Make.rules s.config.make s.ledger

def saveSnapshot (s : Session) : List UInt8 := Snapshot.save s.ledger

def loadSnapshot (s : Session) (bs : List UInt8) (self : Option String) :
    Session × Except SessionError Nat :=
  let (l, r) := Snapshot.restore s.ledger bs self
  ({ s with ledger := l }, r.mapError .ledger)

def record (s : Session) (d : Disk) (ctx : BuildContext) (alg : HashAlg) :
    Session × Disk × Except SessionError AlgReport :=
  match build d.tree alg s.ledger.deps with
  | .error e => (s, d, .error (.store e))
  | .ok (doc, sc) =>
    let (store, d, r) := s.store.write d doc
    let s := { s with store }
    match r with
    | .error e => (s, d, .error (.store e))
    | .ok id =>
      match recordMetadata d s.config.root alg ctx s.ledger.primaryInput sc.records with
      | (d, .error e) => (s, d, .error (.store e))
      | (d, .ok metadataPath) =>
        (s, d, .ok { alg, document := some id, objectPath := s.store.location id, metadataPath,
                     entries := doc.entries.length, skipped := sc.skipped })

def entryOf (alg : HashAlg) : Except SessionError AlgReport → AlgReport
  | .ok e => e
  | .error e => AlgReport.failed alg e.message

def finishWith (ctx : BuildContext) : Session → Disk → List HashAlg → Session × Disk × List AlgReport
  | s, d, [] => (s, d, [])
  | s, d, alg :: rest =>
    let (s, d, r) := s.record d ctx alg
    let (s, d, entries) := finishWith ctx s d rest
    (s, d, entryOf alg r :: entries)

def finish (s : Session) (d : Disk) (ctx : BuildContext) : Session × Disk × Report :=
  let (s, d, entries) := finishWith ctx s d s.config.algorithms
  (s, d, ⟨entries⟩)

end Session

end Provenance
