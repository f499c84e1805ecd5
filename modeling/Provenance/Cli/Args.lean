import Provenance.Gitoid.Alg
import Provenance.Build.Mode
/-!
The command line: global options (`--verbose`, `--format text|json`),
then one of the subcommands `hash`, `record`, `verify` and `show` with its own
options and operands. Options are written `--name value`, `--name=value`,
`-x value` or `-xvalue`; `--` ends the options. A value may not begin with
`-` unless it is `-` itself; a path may not be empty; an option that takes one
value may be given once before the subcommand and once after it, and the
later one counts. Words are read in order: the first violation is a usage
error, and `--help` or `--version` met before any violation asks for help
text instead of a run. The `help` subcommand takes at most one subcommand
name and no options. Before the subcommand, a value given as its own word is
checked only when the next word is read; when that word is the subcommand,
the check waits until the subcommand's words are read, so help asked for
there still wins. A subcommand's name is never a value: it starts the
subcommand, and the option before it is left without a value.
-/

namespace Provenance.Cli

inductive Format where
  | text
  | json
  deriving DecidableEq, Repr

inductive ValueKind where
  | flag
  | text
  | path
  | alg
  | mode
  | count
  | format
  deriving DecidableEq, Repr

structure OptSpec where
  long : String
  short : Option Char := none
  kind : ValueKind
  many : Bool := false

def globalOpts : List OptSpec :=
  [{ long := "verbose", short := some 'v', kind := .flag },
   { long := "format", kind := .format },
   { long := "help", short := some 'h', kind := .flag }]

def subcommandOpts : String → Option (List OptSpec)
  | "hash" => some [{ long := "algorithm", short := some 'a', kind := .alg }]
  | "record" => some
    [{ long := "target", kind := .text, many := true },
     { long := "quoted-target", kind := .text, many := true },
     { long := "vpath", kind := .text, many := true },
     { long := "algorithm", short := some 'a', kind := .alg, many := true },
     { long := "root", kind := .path },
     { long := "output", short := some 'o', kind := .path },
     { long := "mode", kind := .mode },
     { long := "build-cmd", kind := .text },
     { long := "make-deps", kind := .path },
     { long := "phony-targets", kind := .flag },
     { long := "column-width", kind := .count },
     { long := "load-snapshot", kind := .path },
     { long := "snapshot-self", kind := .text },
     { long := "save-snapshot", kind := .path },
     { long := "note", kind := .path },
     { long := "config", short := some 'c', kind := .path }]
  | "verify" | "show" => some [{ long := "root", kind := .path }]
  | _ => none

/-- What the words of a command line were read as. -/
structure Words where
  command : Option String := none
  opts : List (String × String) := []
  /-- How many of `opts` were given before the subcommand. -/
  base : Nat := 0
  operands : List String := []
  -- once help or the version is asked for, nothing after it is read
  help : Bool := false
  version : Bool := false
  /-- Set when an option just before the subcommand was left without its
  value or given a value it refuses; this is a usage error once the
  subcommand's words are read, unless help was asked for among them. -/
  deferredFault : Bool := false

/-- Reads a count as an unsigned 64-bit number, an optional `+` first. -/
def parseCount (s : String) : Option Nat :=
  let cs := match s.toList with
    | '+' :: rest => rest
    | cs => cs
  if cs ≠ [] ∧ cs.all Char.isDigit then
    let n := cs.foldl (fun acc c => acc * 10 + (c.toNat - 48)) 0
    if n < UInt64.size then some n else none
  else none

def valueOk (kind : ValueKind) (v : String) : Bool :=
  match kind with
  | .flag | .text => true
  | .path => v ≠ ""
  | .alg => (HashAlg.parse v).toOption.isSome
  | .mode => (CompileMode.parse v).toOption.isSome
  | .count => (parseCount v).isSome
  | .format => v = "text" || v = "json"

def looksLikeOption (w : String) : Bool :=
  w.toList.head? = some '-' && w ≠ "-"

def optsFor (command : Option String) : List OptSpec :=
  match command with
  | none => globalOpts ++ [{ long := "version", short := some 'V', kind := .flag }]
  | some "help" => []
  | some c => globalOpts ++ (subcommandOpts c).getD []

def Words.stopped (ws : Words) : Bool := ws.help || ws.version

/-- Adds an option read. Its value must be acceptable, and an option taken
once may not be given again at the same level (before or after the
subcommand). Asking for help stops the reading. -/
def Words.add (ws : Words) (spec : OptSpec) (v : String) : Except Unit Words :=
  if spec.long = "help" then .ok { ws with help := true }
  else if spec.long = "version" then .ok { ws with version := true }
  else if valueOk spec.kind v && (spec.many || !(ws.opts.drop ws.base).any (·.1 = spec.long)) then
    .ok { ws with opts := ws.opts ++ [(spec.long, v)] }
  else .error ()

def maxOperands : String → Option Nat
  | "verify" | "show" => some 1
  | _ => none

def operandKind : String → ValueKind
  | "hash" => .path
  | _ => .text

def isSubcommand (w : String) : Bool := (subcommandOpts w).isSome || w = "help"

/-- Whether the words after `help` name what help is asked for: nothing, or
one subcommand. -/
def helpTopicsOk : List String → Bool
  | [] => true
  | [w] => isSubcommand w
  | _ => false

/-- Adds an operand, or takes a word as the subcommand when none is seen yet. -/
def Words.operand (ws : Words) (w : String) : Except Unit Words :=
  match ws.command with
  | none =>
    if isSubcommand w then .ok { ws with command := some w, base := ws.opts.length }
    else .error ()
  | some c =>
    if (maxOperands c).all (ws.operands.length < ·) && valueOk (operandKind c) w then
      .ok { ws with operands := ws.operands ++ [w] }
    else .error ()

/-- Reads a cluster of short options such as `-va sha1`, each added in turn:
the words read, and the option that takes its value from the next word. A
value may also follow its option in the cluster, after an optional `=`
(`-asha1`, `-a=sha1`; `-a=` gives the empty value). -/
def readCluster (specs : List OptSpec) (ws : Words) : List Char → Except Unit (Words × Option OptSpec)
  | [] => .ok (ws, none)
  | c :: more =>
    if ws.stopped then .ok (ws, none)
    else
      match specs.find? (·.short = some c) with
      | none => .error ()
      | some spec =>
        if spec.kind = .flag then do readCluster specs (← ws.add spec "") more
        else
          match more with
          | '=' :: v => do pure (← ws.add spec (String.ofList v), none)
          | [] => .ok (ws, some spec)
          | v => do pure (← ws.add spec (String.ofList v), none)

/-- Reads the words of a command line, in order; `escaped` is set after `--`.
The first fault ends the reading with a usage error. -/
def readWords (escaped : Bool) (ws : Words) : List String → Except Unit Words
  | [] => .ok ws
  | w :: rest =>
    if ws.stopped then .ok ws
    else if ws.command = some "help" then
      if helpTopicsOk (w :: rest) then .ok ws else .error ()
    else
      let specs := optsFor ws.command
      let withValue (spec : OptSpec) (ws : Words) : Except Unit Words :=
        match rest with
        | v :: more =>
          if looksLikeOption v then .error ()
          else if ws.command = none ∧ isSubcommand v then do
            readWords false { (← ws.operand v) with deferredFault := true } more
          else if ws.command = none ∧ (more.head?.map isSubcommand).getD false then
            match ws.add spec v with
            | .ok ws => readWords false ws more
            | .error () => readWords false { ws with deferredFault := true } more
          else do readWords false (← ws.add spec v) more
        | [] => .error ()
      if escaped ∨ ¬ looksLikeOption w then
        if escaped ∧ ws.command = none then .error ()
        else do readWords escaped (← ws.operand w) rest
      else if w = "--" then readWords true ws rest
      else
        match w.toList with
        | '-' :: '-' :: name =>
          let key := String.ofList (name.takeWhile (· ≠ '='))
          let attached := match name.dropWhile (· ≠ '=') with
            | '=' :: v => some (String.ofList v)
            | _ => none
          match specs.find? (·.long = key) with
          | none => .error ()
          | some spec =>
            if spec.kind = .flag then
              if attached.isSome then .error ()
              else do readWords false (← ws.add spec "") rest
            else
              match attached with
              | some v => do readWords false (← ws.add spec v) rest
              | none => withValue spec ws
        | '-' :: cluster =>
          match readCluster specs ws cluster with
          | .error () => .error ()
          | .ok (ws, none) => readWords false ws rest
          | .ok (ws, some spec) => withValue spec ws
        | _ => .error ()

structure RecordArgs where
  deps : List String := []
  targets : List (String × Bool) := []
  vpath : List String := []
  algorithms : List HashAlg := []
  root : Option String := none
  output : Option String := none
  mode : CompileMode := .compileOnly
  buildCmd : Option String := none
  makeDeps : Option String := none
  phonyTargets : Bool := false
  columnWidth : Option Nat := none
  loadSnapshot : Option String := none
  snapshotSelf : Option String := none
  saveSnapshot : Option String := none
  note : Option String := none
  config : Option String := none

inductive Command where
  | hash (alg : HashAlg) (files : List String)
  | record (args : RecordArgs)
  | verify (gitoid root : String)
  | print (gitoid root : String)

inductive Request where
  | help
  | version
  | run (format : Format) (command : Command)

end Provenance.Cli

namespace Provenance.Cli

def Words.values (ws : Words) (key : String) : List String :=
  ws.opts.filterMap fun (k, v) => if k = key then some v else none

def Words.value? (ws : Words) (key : String) : Option String :=
  (ws.values key).head?

def Words.flag (ws : Words) (key : String) : Bool :=
  ws.opts.any (·.1 = key)

def Words.recordArgs (ws : Words) : RecordArgs :=
  { deps := ws.operands
    targets := ws.opts.filterMap fun (k, v) =>
      if k = "target" then some (v, false)
      else if k = "quoted-target" then some (v, true)
      else none
    vpath := ws.values "vpath"
    algorithms := (ws.values "algorithm").filterMap fun v => (HashAlg.parse v).toOption
    root := ws.value? "root"
    output := ws.value? "output"
    mode := ((ws.value? "mode").bind fun v => (CompileMode.parse v).toOption).getD .compileOnly
    buildCmd := ws.value? "build-cmd"
    makeDeps := ws.value? "make-deps"
    phonyTargets := ws.flag "phony-targets"
    columnWidth := (ws.value? "column-width").bind parseCount
    loadSnapshot := ws.value? "load-snapshot"
    snapshotSelf := ws.value? "snapshot-self"
    saveSnapshot := ws.value? "save-snapshot"
    note := ws.value? "note"
    config := ws.value? "config" }

/-- What a command line asks for; a usage error is `none`. -/
def request (argv : List String) : Option Request := do
  let ws ← (readWords false {} argv).toOption
  if ws.help then return .help
  if ws.version then return .version
  if ws.command = some "help" then return .help
  if ws.deferredFault then none
  let format := if (ws.values "format").getLast? = some "json" then Format.json else .text
  match ws.command with
  | some "hash" =>
    if ws.operands = [] then none
    else
      let alg := ((ws.value? "algorithm").bind fun v => (HashAlg.parse v).toOption).getD .sha1
      pure (.run format (.hash alg ws.operands))
  | some "record" =>
    if (ws.value? "snapshot-self").isSome ∧ (ws.value? "load-snapshot").isNone then none
    else pure (.run format (.record ws.recordArgs))
  | some "verify" =>
    match ws.operands with
    | [g] => pure (.run format (.verify g ((ws.value? "root").getD ".")))
    | _ => none
  | some "show" =>
    match ws.operands with
    | [g] => pure (.run format (.print g ((ws.value? "root").getD ".")))
    | _ => none
  | _ => none

end Provenance.Cli
