import Provenance.Ledger.Vpath
import Provenance.Files.Error
import Provenance.Text.Utf8
/-!
The dependency ledger of one compilation: the Make targets it produces, the
dependencies it read, the vpath rules that shorten both, and the C++ module
it exports and imports. The targets are one list with a low-water mark: the
names before the mark are written as they are, the names from it on are
escaped for Make. An unquoted name added while quoted ones exist swaps into
the slot at the mark, whose name goes to the back.
-/

namespace Provenance

structure ModuleTarget where
  name : String
  cmi : String
  isHeaderUnit : Bool
  deriving DecidableEq, Repr

inductive SnapshotFault where
  | tooLong (index len : Nat)
  | notUtf8 (index : Nat) (e : Text.Utf8.Utf8Error)
  deriving DecidableEq, Repr

def maxRecordLen : Nat := 1024 * 1024

def SnapshotFault.message : SnapshotFault → String
  | .tooLong i n =>
    "record " ++ toString i ++ " claims " ++ toString n ++ " bytes (max " ++ toString maxRecordLen ++ ")"
  | .notUtf8 i e => "record " ++ toString i ++ " is not UTF-8: " ++ e.message

inductive LedgerError where
  | emptyPath
  | moduleTargetAlreadySet (existing : String)
  | corruptSnapshot (f : SnapshotFault)
  | io (e : Files.IoError)
  deriving DecidableEq, Repr

namespace LedgerError

def message : LedgerError → String
  | emptyPath => "dependency path must not be empty"
  | moduleTargetAlreadySet n => "module target already set to " ++ n
  | corruptSnapshot f => "corrupt snapshot: " ++ f.message
  | io e => "I/O error: " ++ e.message

def kind : LedgerError → String
  | emptyPath => "EmptyPath"
  | moduleTargetAlreadySet _ => "ModuleTargetAlreadySet"
  | corruptSnapshot _ => "CorruptSnapshot"
  | io _ => "Io"

def causes : LedgerError → List String
  | io e => [e.message]
  | _ => []

end LedgerError

structure Ledger where
  targets : List String := []
  deps : List String := []
  vpath : Vpath := {}
  modules : List String := []
  moduleTarget : Option ModuleTarget := none
  quoteLwm : Nat := 0
  deriving DecidableEq, Repr

namespace Ledger

def isQuoted (l : Ledger) (i : Nat) : Bool := decide (l.quoteLwm ≤ i)

-- The source swaps the new name with `targets[quote_lwm]` and panics where
-- that slot is past the end; there the ledger is left as it was. No run from
-- the empty ledger reaches that case.
def addTarget (l : Ledger) (name : String) (quote : Bool) : Ledger :=
  let target := l.vpath.apply name
  if quote then { l with targets := l.targets ++ [target] }
  else if l.quoteLwm = l.targets.length then
    { l with targets := l.targets ++ [target], quoteLwm := l.quoteLwm + 1 }
  else
    match l.targets[l.quoteLwm]? with
    | some moved => { l with targets := l.targets.set l.quoteLwm target ++ [moved], quoteLwm := l.quoteLwm + 1 }
    | none => l

def baseName (name : String) : List Char :=
  (name.toList.reverse.takeWhile (· ≠ '/')).reverse

def beforeLastDot (cs : List Char) : List Char :=
  match cs.reverse.dropWhile (· ≠ '.') with
  | [] => cs
  | _ :: before => before.reverse

/-- The object file an input implies: its base name with the last extension
replaced by `.o`. -/
def objectName (name : String) : String := String.ofList (beforeLastDot (baseName name)) ++ ".o"

/-- The target an input implies when no target was given: its object file,
quoted; `-` for an empty name. Nothing happens once a target exists. -/
def addDefaultTarget (l : Ledger) (name : String) : Ledger :=
  if l.targets ≠ [] then l
  else if name = "" then { l with targets := l.targets ++ ["-"] }
  else l.addTarget (objectName name) true

/-- Records a dependency, shortened by the vpath rules; an empty path is refused. -/
def addDependency (l : Ledger) (path : String) : Except LedgerError Ledger :=
  if path = "" then .error .emptyPath
  else .ok { l with deps := l.deps ++ [l.vpath.apply path] }

def primaryInput (l : Ledger) : Option String := l.deps.head?

def addVpath (l : Ledger) (spec : String) : Ledger := { l with vpath := l.vpath.addSpec spec }

def addModuleTarget (l : Ledger) (name cmi : String) (isHeaderUnit : Bool) :
    Except LedgerError Ledger :=
  match l.moduleTarget with
  | some m => .error (.moduleTargetAlreadySet m.name)
  | none => .ok { l with moduleTarget := some ⟨name, cmi, isHeaderUnit⟩ }

def addModuleDep (l : Ledger) (name : String) : Ledger := { l with modules := l.modules ++ [name] }

def clear (_ : Ledger) : Ledger := {}

end Ledger

end Provenance
