import Provenance.Cli.Args
import Provenance.Session.Basic
import Provenance.Text.Json
/-!
Running the command line against a file system. `hash` prints the gitoid of
each file; `record` builds a session from the configuration file and the
options, records the dependencies and targets, replays a snapshot, writes the
Make rules, a snapshot and the note if asked, and prints the report; `verify`
checks a stored document; `show` prints one. A failure prints `Error:` with
the message and the errors beneath it and exits with status 1; a usage error
exits with status 2.
-/

namespace Provenance.Cli

open Files Store Text

structure Outcome where
  status : Nat
  stdout : String := ""
  stderr : String := ""
  deriving DecidableEq, Repr

/-- A run: it may fail with a chain of messages, outermost first, and it
changes the file system. -/
abbrev Run := ExceptT (List String) (StateM Tree)

def errorText : List String → String
  | [] => "Error: \n"
  | [m] => "Error: " ++ m ++ "\n"
  | [m, c] => "Error: " ++ m ++ "\n\nCaused by:\n    " ++ c ++ "\n"
  | m :: cs =>
    "Error: " ++ m ++ "\n\nCaused by:\n" ++
      String.join ((List.range cs.length).zip cs |>.map fun (i, c) =>
        "    " ++ toString i ++ ": " ++ c ++ "\n")

def sessionFailure (e : SessionError) : Run α := throw (e.message :: e.causes)

def recordJson (r : DepRecord) : Json :=
  .obj [("path", .str r.path), ("gitoid", .str r.gitoid.toUri)]

def optionJson : Option String → Json
  | some s => .str s
  | none => .null

def reportJson (r : Report) : Json :=
  .obj [("algorithms", .arr (r.algorithms.map fun a => .obj [
    ("algorithm", .str a.alg.name), ("document", optionJson (a.document.map Gitoid.toUri)),
    ("object_path", optionJson a.objectPath), ("metadata_path", optionJson a.metadataPath),
    ("entries", .num a.entries), ("skipped", .arr (a.skipped.map Json.str)),
    ("error", optionJson a.error)]))]

def reportText (r : Report) : String :=
  String.join (r.algorithms.map fun a =>
    (match a.document with
      | some id =>
        "✓ " ++ a.alg.name ++ " " ++ id.toHex ++ " (" ++ toString a.entries ++ " entries)\n" ++
          (match a.metadataPath with
            | some p => "  Metadata: " ++ p ++ "\n"
            | none => "")
      | none => "✗ " ++ a.alg.name ++ " no provenance recorded: " ++ a.error.getD "unknown error" ++ "\n") ++
    String.join (a.skipped.map fun p => "  skipped: " ++ p ++ "\n"))

/-- `hash`: the gitoid of each file, all read before anything is printed. -/
def hashFiles (format : Format) (alg : HashAlg) (files : List String) : Run String := do
  let t ← get
  let records ← files.mapM fun f =>
    match hashFile t alg f with
    | .ok g => pure (⟨f, g⟩ : DepRecord)
    | .error e => throw ["cannot hash " ++ f, e.message]
  match format with
  | .text => pure (String.join (records.map fun r => r.gitoid.toHex ++ "  " ++ r.path ++ "\n"))
  | .json => pure ((Json.arr (records.map recordJson)).pretty 0 ++ "\n")

def readConfig (path : String) : Run Config := do
  match (← get).readFile path with
  | .error e => sessionFailure (.configFile path (.os e))
  | .ok bytes =>
    match Utf8.decode bytes with
    | .error _ => sessionFailure (.configFile path .invalidData)
    | .ok text =>
      match Config.ofToml text with
      | .ok c => pure c
      | .error e => sessionFailure (.config e)

def createFile (path : String) (bytes : List UInt8) : Run Unit := do
  match (← get).writeFile path bytes with
  | .ok t => set t
  | .error e => throw ["cannot create " ++ path, e.message]

/-- The configuration of a `record` run: the file's, then the options over it. -/
def recordConfig (a : RecordArgs) : Run Config := do
  let c ← match a.config with
    | some p => readConfig p
    | none => pure {}
  pure { c with
    algorithms := if a.algorithms = [] then c.algorithms else a.algorithms
    root := a.root.getD c.root
    vpath := c.vpath ++ a.vpath
    make := { c.make with
      phonyTargets := c.make.phonyTargets || a.phonyTargets
      columnWidth := a.columnWidth.getD c.make.columnWidth } }

def replaySnapshot (s : Session) (path : String) (self : Option String) : Run Session := do
  let bytes : Except LedgerError (List UInt8) ← match (← get).readFile path with
    | .ok bytes => pure (.ok bytes)
    | .error .isADirectory => pure (.error (LedgerError.io (.os .isADirectory)))
    | .error e => throw ["cannot open snapshot " ++ path, e.message]
  match bytes with
  | .error e => sessionFailure (.ledger e)
  | .ok bytes =>
    let (s, r) := s.loadSnapshot bytes self
    match r with
    | .ok _ => pure s
    | .error e => sessionFailure e

def recordStep (format : Format) (a : RecordArgs) : Run String := do
  let c ← recordConfig a
  let s ← match Session.new c with
    | .ok s => pure s
    | .error e => sessionFailure e
  let l := a.targets.foldl (fun l (n, q) => l.addTarget n q) s.ledger
  let l ← a.deps.foldlM (fun l d =>
    match l.addDependency d with
    | .ok l => pure l
    | .error e => throw (e.message :: e.causes)) l
  let s := { s with ledger := l.addDefaultTarget (a.deps.head?.getD "") }
  let s ← match a.loadSnapshot with
    | some p => replaySnapshot s p a.snapshotSelf
    | none => pure s
  if let some p := a.makeDeps then createFile p (Utf8.encode s.makeRules)
  if let some p := a.saveSnapshot then createFile p s.saveSnapshot
  let ctx : BuildContext := { output := a.output, mode := a.mode, buildCmd := a.buildCmd }
  let (_, d, report) := s.finish { tree := ← get } ctx
  set d.tree
  if let some p := a.note then
    match (← get).writeFile p report.noteSection with
    | .ok t => set t
    | .error e => throw ["cannot write " ++ p, e.message]
  match format with
  | .json => pure ((reportJson report).pretty 0 ++ "\n")
  | .text => pure (reportText report)

def parseGitoid (s : String) : Run Gitoid :=
  let r := if Gitoid.uriPrefix.toList.isPrefixOf s.toList then Gitoid.ofUri s
    else Gitoid.parseHex (String.ofList (s.toList.map Char.toLower))
  match r with
  | .ok g => pure g
  | .error e => throw ["not a gitoid: " ++ s, e.message]

def verifyStep (format : Format) (gitoid root : String) : Run String := do
  let id ← parseGitoid gitoid
  let store : DiskStore := ⟨root⟩
  match store.verify (← get) id with
  | .error e => throw (("verification failed for " ++ id.toUri) :: e.message :: e.causes)
  | .ok doc =>
    match format with
    | .json => pure ((Json.obj [("entries", .num doc.entries.length), ("gitoid", .str doc.gitoid.toUri),
        ("valid", .bool true)]).compact ++ "\n")
    | .text => pure ("✓ " ++ id.toHex ++ " verified\n  Path: " ++ store.objectPath id ++
        "\n  Entries: " ++ toString doc.entries.length ++ "\n")

/-- The lines of a text: split at line feeds, a carriage return before one
dropped, no empty last line. -/
def textLines (s : String) : List String :=
  let pieces := s.toList.splitOn '\n'
  let pieces := if s.toList.getLast? = some '\n' ∨ s = "" then pieces.dropLast else pieces
  let n := pieces.length
  ((List.range n).zip pieces).map fun (i, l) =>
    String.ofList (if (i + 1 < n ∨ s.toList.getLast? = some '\n') ∧ l.getLast? = some '\r'
      then l.dropLast else l)

def showStep (format : Format) (gitoid root : String) : Run String := do
  let id ← parseGitoid gitoid
  let store : DiskStore := ⟨root⟩
  match store.read (← get) id with
  | .error e => throw (e.message :: e.causes)
  | .ok none => throw ["no document " ++ id.toHex ++ " under " ++ root]
  | .ok (some bytes) =>
    match Utf8.decode bytes with
    | .error e => throw ["document is not UTF-8", e.message]
    | .ok text =>
      match format with
      | .text => pure text
      | .json =>
        let ls := textLines text
        pure ((Json.obj [("entries", .arr ((ls.drop 1).map Json.str)), ("gitoid", .str id.toUri),
          ("header", optionJson ls.head?)]).compact ++ "\n")

def run (t : Tree) (argv : List String) : Tree × Outcome :=
  match request argv with
  | none => (t, { status := 2 })
  | some .help | some .version => (t, { status := 0 })
  | some (.run format command) =>
    let step : Run String := match command with
      | .hash alg files => hashFiles format alg files
      | .record a => recordStep format a
      | .verify g root => verifyStep format g root
      | .print g root => showStep format g root
    match (step.run).run t with
    | (.ok out, t) => (t, { status := 0, stdout := out })
    | (.error msgs, t) => (t, { status := 1, stderr := errorText msgs })

end Provenance.Cli
