import Provenance.Gitoid.Error
import Provenance.Files.Path
/-!
What a compiler invocation produces, and the output path it implies. An
explicit output wins; linking writes `a.out`; preprocessing writes nothing a
BOM is recorded for; compiling and assembling write the stem of the primary
input with `.o` or `.s`.
-/

namespace Provenance

inductive CompileMode where
  | preprocessOnly
  | assembleOnly
  | compileOnly
  | link
  deriving DecidableEq, Repr, Inhabited

namespace CompileMode

def name : CompileMode → String
  | preprocessOnly => "preprocess-only"
  | assembleOnly => "assemble-only"
  | compileOnly => "compile-only"
  | link => "link"

/-- Reads a mode: its name, its verb or its compiler flag letter, case sensitive. -/
def parse (s : String) : Except ValueError CompileMode :=
  if s = "preprocess-only" ∨ s = "preprocess" ∨ s = "E" then .ok preprocessOnly
  else if s = "assemble-only" ∨ s = "assemble" ∨ s = "S" then .ok assembleOnly
  else if s = "compile-only" ∨ s = "compile" ∨ s = "c" then .ok compileOnly
  else if s = "link" then .ok link
  else .error (.unknownCompileMode s)

def outputSuffix : CompileMode → Option String
  | assembleOnly => some ".s"
  | compileOnly => some ".o"
  | _ => none

def producesOutput : CompileMode → Bool
  | preprocessOnly => false
  | _ => true

def linkOutput : String := "a.out"

end CompileMode

structure BuildContext where
  output : Option String := none
  mode : CompileMode := .compileOnly
  buildCmd : Option String := none
  deriving DecidableEq, Repr

def BuildContext.resolveOutput (ctx : BuildContext) (primaryInput : Option String) :
    Option String :=
  match ctx.output with
  | some o => some o
  | none =>
    match ctx.mode with
    | .preprocessOnly => none
    | .link => some CompileMode.linkOutput
    | m => do
      let suffix ← m.outputSuffix
      let input ← primaryInput
      let stem ← Files.fileStem input
      pure (stem ++ suffix)

end Provenance
