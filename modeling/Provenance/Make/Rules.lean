import Provenance.Make.Quote
import Provenance.Ledger.Basic
/-!
Make rules of a ledger. The dependency rule lists the targets (and, with
modules, the module's CMI file), a colon, and the dependencies; phony rules
name each dependency after the first; with modules come the imports rule,
the module rule, its `.PHONY` line, the order-only rule and the
`CXX_IMPORTS` line. Names are separated by one space. With a column width, a
name that would pass it, and does not start its line, goes on a continuation
line instead (` \` and a line feed before it).

The rules are laid out as pieces, fixed text and names each with the gap
written before it, and the text is the pieces one after another.
-/

namespace Provenance.Make

structure Options where
  columnWidth : Nat := 0
  phonyTargets : Bool := false
  modules : Bool := false
  deriving DecidableEq, Repr

def minColumnWidth : Nat := 34

/-- The width lines are wrapped at: none for 0, else at least the minimum. -/
def Options.effectiveWidth (o : Options) : Nat :=
  if o.columnWidth = 0 then 0 else max o.columnWidth minColumnWidth

def moduleSuffix : String := ".c++m"

/-- What is written before a name: nothing at the start of a line, one space,
or a line continuation (a space, a backslash, a line feed and a space). -/
inductive Gap where
  | none
  | space
  | continuation
  deriving DecidableEq, Repr

def Gap.text : Gap → String
  | none => ""
  | space => " "
  | continuation => " \\\n "

inductive Piece where
  | text (s : String)
  | name (gap : Gap) (s : String)
  deriving DecidableEq, Repr

def Piece.render : Piece → String
  | text s => s
  | name g s => g.text ++ s

def render (ps : List Piece) : String := String.join (ps.map Piece.render)

def put (width : Nat) (name : String) (column : Nat) : Piece × Nat :=
  if column > 0 then
    if width > 0 ∧ column + name.utf8ByteSize > width then
      (.name .continuation name, 1 + name.utf8ByteSize)
    else (.name .space name, column + 1 + name.utf8ByteSize)
  else (.name .none name, column + name.utf8ByteSize)

def putAll (width : Nat) : List String → Nat → List Piece × Nat
  | [], column => ([], column)
  | n :: ns, column =>
    let (p, c) := put width n column
    let (ps, d) := putAll width ns c
    (p :: ps, d)

/-- The targets as written: those before the mark as they are, the others quoted. -/
def targetWords (l : Ledger) : List String :=
  l.targets.mapIdx fun i t => if l.isQuoted i then quote t none else t

/-- One rule: names, a separator, the names it leads to, and a line feed. The
names after the separator start one column past the names before it. -/
def rule (width : Nat) (before : List String) (sep : String) (after : List String) : List Piece :=
  let (b, c) := putAll width before 0
  let (a, _) := putAll width after (c + 1)
  b ++ .text sep :: a ++ [.text "\n"]

def labelled (width : Nat) (label : String) (names : List String) : List Piece :=
  .text label :: (putAll width names label.utf8ByteSize).1 ++ [.text "\n"]

def dependencyRules (o : Options) (l : Ledger) : List Piece :=
  if l.deps = [] then []
  else
    let cmi := match o.modules, l.moduleTarget with
      | true, some mt => [quote mt.cmi none]
      | _, _ => []
    let phony := if o.phonyTargets then
        (l.deps.drop 1).map fun dep => .text (quote dep none ++ ":\n")
      else []
    rule o.effectiveWidth (targetWords l ++ cmi) ":" (l.deps.map (quote · none)) ++ phony

def moduleRules (o : Options) (l : Ledger) : List Piece :=
  let w := o.effectiveWidth
  let imports := l.modules.map (quote · (some moduleSuffix))
  let cmi := (l.moduleTarget.map fun mt => quote mt.cmi none).toList
  let importRule := if l.modules = [] then [] else rule w (targetWords l ++ cmi) ":" imports
  let exportRules := match l.moduleTarget with
    | none => []
    | some mt =>
      let orderOnly := match mt.isHeaderUnit, l.targets with
        | false, first :: _ => rule w [quote mt.cmi none] ":|" [quote first none]
        | _, _ => []
      rule w [quote mt.name (some moduleSuffix)] ":" [quote mt.cmi none] ++
        labelled w ".PHONY:" [quote mt.name (some moduleSuffix)] ++ orderOnly
  let importsLine := if l.modules = [] then [] else labelled w "CXX_IMPORTS +=" imports
  importRule ++ exportRules ++ importsLine

def layout (o : Options) (l : Ledger) : List Piece :=
  dependencyRules o l ++ (if o.modules then moduleRules o l else [])

def rules (o : Options) (l : Ledger) : String := render (layout o l)

end Provenance.Make
