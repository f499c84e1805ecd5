import Provenance.Store.Disk
import Provenance.Store.Scan
import Provenance.Build.Mode
/-!
Provenance metadata: one file per build output, binding it to the gitoids and
absolute paths of its inputs and to the build command. The file is
`<root>/metadata/gnu/<namespace>/<output file name>.metadata` and reads

    outfile:  path: <output>
    infile: <hex> path: <input>      (one per record)
    build_cmd: <command>

The output path is the canonical one if it exists, else its directory's
canonical path joined with its name, else `not available`. An input path is
canonical if it exists, else made absolute without resolving anything.
-/

namespace Provenance.Store

open Files

def metadataDir : String := "metadata"

def producerDir : String := "gnu"

def notAvailable : String := "not available"

def metadataFileName (output : String) : Except StoreError String :=
  match fileName output with
  | some n => .ok (n ++ ".metadata")
  | none => .error (.invalidName output)

def metadataPath (root : String) (alg : HashAlg) (output : String) : Except StoreError String :=
  (metadataFileName output).map fun n =>
    join (join (join (join root metadataDir) producerDir) alg.storeNamespace) n

def outputShown (t : Tree) (output : String) : Option String :=
  match t.canonical output with
  | .ok loc => some loc.render
  | .error _ => do
    let n ← fileName output
    let dir := match parent output with
      | some p => if p = "" then "." else p
      | none => "."
    match t.canonical dir with
    | .ok loc => some (join loc.render n)
    | .error _ => none

def inputShown (t : Tree) (path : String) : String :=
  match t.canonical path with
  | .ok loc => loc.render
  | .error _ => (absolute t.cwd.render path).getD path

def renderMetadata (t : Tree) (output : String) (records : List DepRecord)
    (buildCmd : Option String) : String :=
  "outfile:  path: " ++ (outputShown t output).getD notAvailable ++ "\n" ++
  String.join (records.map fun r => "infile: " ++ r.gitoid.toHex ++ " path: " ++ inputShown t r.path ++ "\n") ++
  "build_cmd: " ++ buildCmd.getD "" ++ "\n"

/-- Writes the metadata of a build step; nothing happens for a step without an
output. Returns the path written. -/
def recordMetadata (d : Disk) (root : String) (alg : HashAlg) (ctx : BuildContext)
    (primaryInput : Option String) (records : List DepRecord) :
    Disk × Except StoreError (Option String) :=
  match ctx.resolveOutput primaryInput with
  | none => (d, .ok none)
  | some output =>
    match metadataFileName output with
    | .error e => (d, .error e)
    | .ok name =>
      withLevels d (levels root [metadataDir, producerDir, alg.storeNamespace]) fun d dir =>
        let path := join dir name
        match writeLeaf d path (Text.Utf8.encode (renderMetadata d.tree output records ctx.buildCmd)) with
        | (d, .ok ()) => (d, .ok (some path))
        | (d, .error e) => (d, .error e)

end Provenance.Store
