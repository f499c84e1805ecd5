import Provenance.Cli.Run
/-!
The command line on the machine's file system. The run itself is pure, over a
tree; this layer reads into the tree what a run may look at, runs, then makes
every directory and writes every file the run made, and prints.

What is read: the node each command-line word names, taken as a path, with the
directories above it, and the store's `objects` and `metadata` directories
with everything below them. Links are read through, so the tree holds what
they point at.
-/

namespace Provenance.Host

open Files Cli

def depthLimit : Nat := 64

def locOf (cwd : Loc) (path : String) : Loc :=
  (pieces path).foldl
    (fun loc p => if p = "" ∨ p = "." then loc else if p = ".." then loc.dropLast else loc ++ [p])
    (if isAbsolute path then [] else cwd)

def probe (path : String) : IO (Option Node) := do
  let .ok real ← (IO.FS.realPath path).toBaseIO | return none
  let .ok info ← real.metadata.toBaseIO | return none
  match info.type with
  | .dir => return some (.dir 0o755)
  | .file =>
    let .ok bytes ← (IO.FS.readBinFile real).toBaseIO | return none
    return some (.file bytes.toList)
  | _ => return none

def loadPath (t : Tree) (loc : Loc) : IO Tree := do
  let mut t := t
  for n in List.range loc.length do
    let here := loc.take (n + 1)
    if (t.get? here).isSome then continue
    match ← probe (Loc.render here) with
    | some (.dir m) => t := t.put here (.dir m)
    | some node => t := t.put here node; break
    | none => break
  return t

def loadBelow (t : Tree) (loc : Loc) : Nat → IO Tree
  | 0 => pure t
  | fuel + 1 => do
    let some (.dir _) := t.get? loc | return t
    let .ok real ← (IO.FS.realPath (Loc.render loc)).toBaseIO | return t
    let .ok entries ← real.readDir.toBaseIO | return t
    let mut t := t
    for e in entries do
      let here := loc ++ [e.fileName]
      match ← probe (Loc.render here) with
      | some node =>
        t := t.put here node
        t ← loadBelow t here fuel
      | none => pure ()
    return t

def pathWords (argv : List String) : List String :=
  argv.map fun w =>
    if "--".toList.isPrefixOf w.toList then String.ofList ((w.toList.dropWhile (· ≠ '=')).drop 1) else w

def storeRoot (t : Tree) : Option Request → Option String
  | some (.run _ (.record a)) =>
    match ((recordConfig a).run).run t with
    | (.ok c, _) => some c.root
    | (.error _, _) => none
  | some (.run _ (.verify _ root)) => some root
  | some (.run _ (.print _ root)) => some root
  | _ => none

def load (cwd : Loc) (argv : List String) : IO Tree := do
  let mut t : Tree := { cwd }
  t ← loadPath t cwd
  for w in pathWords argv do
    if w ≠ "" then t ← loadPath t (locOf cwd w)
  if let some root := storeRoot t (request argv) then
    for part in ["objects", "metadata"] do
      let loc := locOf cwd (join (if root = "" then "." else root) part)
      t ← loadPath t loc
      t ← loadBelow t loc depthLimit
  return t

def rights (mode : Nat) : IO.FileRight :=
  let at3 (shift : Nat) : IO.AccessRight :=
    { read := (mode >>> (shift + 2)) % 2 == 1, write := (mode >>> (shift + 1)) % 2 == 1,
      execution := (mode >>> shift) % 2 == 1 }
  { user := at3 6, group := at3 3, other := at3 0 }

def store (before after : Tree) : IO Unit := do
  for (loc, node) in after.nodes do
    if before.get? loc = some node then continue
    match node with
    | .dir mode =>
      IO.FS.createDir (Loc.render loc)
      IO.setAccessRights (Loc.render loc) (rights mode)
    | .file bytes => IO.FS.writeBinFile (Loc.render loc) (ByteArray.mk bytes.toArray)
    | .link _ => pure ()

end Provenance.Host

open Provenance Provenance.Host in
def main (argv : List String) : IO UInt32 := do
  let cwd := locOf [] (← IO.currentDir).toString
  let before ← load cwd argv
  let (after, outcome) := Cli.run before argv
  store before after
  IO.print outcome.stdout
  IO.eprint outcome.stderr
  return outcome.status.toUInt32
