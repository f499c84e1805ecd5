import Provenance.Ledger.Snapshot
/-!
The ledger as a state machine: the calls a compilation makes that can change
it, one step per call, and runs of calls. A call that fails leaves the ledger
as it was, except a snapshot restore, which keeps the records it added before
its failure.
-/

namespace Provenance.Ledger

inductive Op where
  | addTarget (name : String) (quote : Bool)
  | addDefaultTarget (name : String)
  | addDependency (path : String)
  | addVpath (spec : String)
  | addModuleTarget (name cmi : String) (isHeaderUnit : Bool)
  | addModuleDep (name : String)
  | clear
  | restore (bytes : List UInt8) (self : Option String)
  deriving DecidableEq, Repr

def step (l : Ledger) : Op → Ledger
  | .addTarget name quote => l.addTarget name quote
  | .addDefaultTarget name => l.addDefaultTarget name
  | .addDependency path =>
    match l.addDependency path with
    | .ok l' => l'
    | .error _ => l
  | .addVpath spec => l.addVpath spec
  | .addModuleTarget name cmi isHeaderUnit =>
    match l.addModuleTarget name cmi isHeaderUnit with
    | .ok l' => l'
    | .error _ => l
  | .addModuleDep name => l.addModuleDep name
  | .clear => l.clear
  | .restore bytes self => (Snapshot.restore l bytes self).1

def run (l : Ledger) (ops : List Op) : Ledger := ops.foldl step l

theorem run_nil (l : Ledger) : run l [] = l := rfl

theorem run_cons (l : Ledger) (op : Op) (ops : List Op) : run l (op :: ops) = run (step l op) ops := rfl

end Provenance.Ledger
