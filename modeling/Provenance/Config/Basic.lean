import Provenance.Config.Toml
import Provenance.Gitoid.Alg
import Provenance.Make.Rules
/-!
The configuration of a recording session: the algorithms to record with, in
order and each at most once; the store root; vpath specs; and how Make rules
are written. It is read from TOML, where every key is optional and unknown
keys are ignored, and written back in a fixed pretty layout: the top-level
keys, a blank line, then the `[make]` table.
-/

namespace Provenance

structure Config where
  algorithms : List HashAlg := [.sha1]
  root : String := ""
  vpath : List String := []
  make : Make.Options := {}
  deriving DecidableEq, Repr

inductive ConfigError where
  | invalidToml
  | listedTwice (alg : HashAlg)
  deriving DecidableEq, Repr

def ConfigError.message : ConfigError → String
  | .invalidToml => "invalid TOML"
  | .listedTwice a => "algorithm " ++ a.name ++ " listed twice"

namespace Config

open Toml

def expect (f : Value → Option α) (v : Value) : Except ConfigError α :=
  match f v with
  | some a => .ok a
  | none => .error .invalidToml

def asString : Value → Option String
  | .str s => some s
  | _ => none

def asBool : Value → Option Bool
  | .bool b => some b
  | _ => none

/-- A count: a non-negative integer below `2 ^ 64`. -/
def asCount : Value → Option Nat
  | .int i => if 0 ≤ i ∧ i.toNat < UInt64.size then some i.toNat else none
  | _ => none

/-- An algorithm: its exact lowercase name, or a table whose only key is the
name and whose value is an empty table or an empty array. -/
def asAlg : Value → Option HashAlg
  | .str s => HashAlg.all.find? (·.name = s)
  | .table [(s, .table [])] => HashAlg.all.find? (·.name = s)
  | .table [(s, .arr [])] => HashAlg.all.find? (·.name = s)
  | _ => none

/-- An algorithm written as a table of an array of tables: its first key is
the name and that key's value is an empty table or an empty array; later keys
are not read. -/
def asAlgTable : List (String × Value) → Option HashAlg
  | (s, .table []) :: _ => HashAlg.all.find? (·.name = s)
  | (s, .arr []) :: _ => HashAlg.all.find? (·.name = s)
  | _ => none

def asAlgs : Value → Option (List HashAlg)
  | .arr vs => vs.mapM asAlg
  | .tables ts => ts.mapM asAlgTable
  | _ => none

def asList (f : Value → Option α) : Value → Option (List α)
  | .arr vs => vs.mapM f
  | _ => none

def field (es : List (String × Value)) (k : String) (f : Value → Option α) (default : α) :
    Except ConfigError α :=
  match (es.find? (·.1 = k)).map (·.2) with
  | some v => expect f v
  | none => .ok default

def item (vs : List Value) (i : Nat) (f : Value → Option α) (default : α) : Except ConfigError α :=
  match vs[i]? with
  | some v => expect f v
  | none => .ok default

/-- The Make options of a table, by key, or of an array, by position (column
width, phony targets, modules). Missing ones keep their defaults; unknown
keys and extra items are ignored. A date or time reads as a table with one
unknown key, so it gives the defaults. -/
def makeOf : Value → Except ConfigError Make.Options
  | .table es => do
    let columnWidth ← field es "column_width" asCount 0
    let phonyTargets ← field es "phony_targets" asBool false
    let modules ← field es "modules" asBool false
    pure { columnWidth, phonyTargets, modules }
  | .arr vs => do
    let columnWidth ← item vs 0 asCount 0
    let phonyTargets ← item vs 1 asBool false
    let modules ← item vs 2 asBool false
    pure { columnWidth, phonyTargets, modules }
  | .datetime => pure {}
  | _ => .error .invalidToml

def ofEntries (es : List (String × Value)) : Except ConfigError Config := do
  let algorithms ← field es "algorithms" asAlgs [.sha1]
  let root ← field es "root" asString ""
  let vpath ← field es "vpath" (asList asString) []
  let make ← match (es.find? (·.1 = "make")).map (·.2) with
    | some v => makeOf v
    | none => pure {}
  pure { algorithms, root, vpath, make }

/-- Checks that no algorithm is listed twice; names the first repetition. -/
def validate (c : Config) : Except ConfigError Unit :=
  match firstRepeat [] c.algorithms with
  | some a => .error (.listedTwice a)
  | none => .ok ()
where
  firstRepeat (seen : List HashAlg) : List HashAlg → Option HashAlg
    | [] => none
    | a :: rest => if a ∈ seen then some a else firstRepeat (a :: seen) rest

def ofToml (text : String) : Except ConfigError Config := do
  let es ← match Toml.parse text with
    | .ok es => .ok es
    | .error _ => .error .invalidToml
  let c ← ofEntries es
  c.validate
  pure c

def longestRun (q : Char) (cs : List Char) : Nat :=
  (cs.foldl (fun (acc : Nat × Nat) c => if c = q then (max acc.1 (acc.2 + 1), acc.2 + 1) else (acc.1, 0))
    (0, 0)).1

/-- Whether a character must be written as an escape code in TOML: a control
character other than tab and line feed. -/
def needsCode (c : Char) : Bool :=
  (c.toNat < 0x20 && c ≠ '\t' && c ≠ '\n') || c.toNat = 0x7f

/-- The body of a string between double quotes. `quotes` is how many double
quotes in a row may stand unescaped (0 on one line, 2 between triple
quotes), and line feeds stand as they are between triple quotes. -/
def escapeBasic (quotes : Nat) (multiline : Bool) : Nat → List Char → List Char
  | _, [] => []
  | run, c :: rest =>
    if c = '"' then
      if run + 1 > quotes then '\\' :: '"' :: escapeBasic quotes multiline 0 rest
      else '"' :: escapeBasic quotes multiline (run + 1) rest
    else
      let code : List Char :=
        if c = '\x08' then ['\\', 'b']
        else if c = '\t' then ['\\', 't']
        else if c = '\n' then (if multiline then ['\n'] else ['\\', 'n'])
        else if c = '\x0c' then ['\\', 'f']
        else if c = '\r' then ['\\', 'r']
        else if c = '\\' then ['\\', '\\']
        else if needsCode c then
          '\\' :: 'u' :: ((Nat.toDigits 16 c.toNat).map Char.toUpper).leftpad 4 '0'
        else [c]
      code ++ escapeBasic quotes multiline 0 rest

/-- How a string is written in TOML: the first form that needs no escapes
among a one-line basic string, a one-line literal, a multi-line basic string
and a multi-line literal; failing all, a basic string with escapes,
multi-line when the text has a line break. A multi-line form starts a new
line after its opening quotes when the text has a line break. -/
def quote (s : String) : String :=
  let cs := s.toList
  let newline := cs.contains '\n'
  let codes := cs.any needsCode
  let backslash := cs.contains '\\'
  let singles := longestRun '\'' cs
  let doubles := longestRun '"' cs
  let opening (delim : String) : String := if newline then delim ++ "\n" else delim
  let basic : String := "\"" ++ String.ofList (escapeBasic 0 false 0 cs) ++ "\""
  let multiBasic : String :=
    opening "\"\"\"" ++ String.ofList (escapeBasic 2 true 0 cs) ++ "\"\"\""
  if !codes && !backslash && doubles = 0 && !newline then basic
  else if !codes && singles = 0 && !newline then "'" ++ s ++ "'"
  else if !codes && !backslash && doubles ≤ 2 then multiBasic
  else if !codes && singles ≤ 2 then opening "\'\'\'" ++ s ++ "\'\'\'"
  else if newline then multiBasic
  else basic

def array (items : List String) : String :=
  match items with
  | [] => "[]"
  | [x] => "[" ++ x ++ "]"
  | _ => "[\n" ++ String.join (items.map fun x => "    " ++ x ++ ",\n") ++ "]"

def bool (b : Bool) : String := if b then "true" else "false"

def toToml (c : Config) : String :=
  "algorithms = " ++ array (c.algorithms.map fun a => quote a.name) ++ "\n" ++
  "root = " ++ quote c.root ++ "\n" ++
  "vpath = " ++ array (c.vpath.map quote) ++ "\n" ++
  "\n[make]\n" ++
  "column_width = " ++ toString c.make.columnWidth ++ "\n" ++
  "phony_targets = " ++ bool c.make.phonyTargets ++ "\n" ++
  "modules = " ++ bool c.make.modules ++ "\n"

end Config

end Provenance
