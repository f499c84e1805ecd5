import Provenance.Bom.Note
/-!
What finishing a session reports: for each configured algorithm, in order,
either the recorded document (its gitoid, where the store keeps it, where the
metadata went, how many entries it has, which dependencies were skipped) or
the error that stopped it.
-/

namespace Provenance

structure AlgReport where
  alg : HashAlg
  document : Option Gitoid := none
  objectPath : Option String := none
  metadataPath : Option String := none
  entries : Nat := 0
  skipped : List String := []
  error : Option String := none
  deriving DecidableEq

def AlgReport.failed (alg : HashAlg) (error : String) : AlgReport :=
  { alg, error := some error }

def AlgReport.isRecorded (r : AlgReport) : Bool := r.document.isSome

structure Report where
  algorithms : List AlgReport := []
  deriving DecidableEq

namespace Report

def isComplete (r : Report) : Bool := r.algorithms.all AlgReport.isRecorded

def get? (r : Report) (a : HashAlg) : Option AlgReport := r.algorithms.find? (·.alg = a)

def documents (r : Report) : List Gitoid := r.algorithms.filterMap (·.document)

def noteSection (r : Report) : List UInt8 := Note.encodeSection r.documents

end Report

end Provenance
