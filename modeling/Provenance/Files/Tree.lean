import Provenance.Files.Error
import Provenance.Files.Path
/-!
A file system as a value. Each location (the names from the root down) holds
a directory with its permission bits, a file with its bytes, or a symbolic
link with its target; the root is always a directory. Paths are resolved as
the kernel does: relative ones from the working directory, `..` to the parent
of the directory actually reached, symbolic links replaced by their targets
(relative targets from the link's directory), at most forty of them per
lookup. A trailing separator requires a directory.
-/

namespace Provenance.Files

inductive Node where
  | dir (mode : Nat)
  | file (bytes : List UInt8)
  | link (target : String)
  deriving DecidableEq, Repr

abbrev Loc := List String

def Loc.render (loc : Loc) : String :=
  if loc = [] then "/" else String.join (loc.map ("/" ++ ·))

/-- Where a lookup ends: at an existing node, or at a missing last name whose
directory exists. -/
inductive Found where
  | node (loc : Loc) (n : Node)
  | absent (loc : Loc)
  deriving DecidableEq, Repr

structure Tree where
  nodes : List (Loc × Node) := []
  cwd : Loc := []
  deriving Repr

/-- The most symbolic links one lookup follows. -/
def linkBudget : Nat := 40

/-- The pieces of a path a lookup walks through; a trailing separator becomes a
last `.`, so the name before it must be a directory. -/
def walkPieces (p : String) : List String :=
  let ps := (pieces p).filter (· ≠ "")
  if p.toList.getLast? = some '/' ∧ ps ≠ [] then ps ++ ["."] else ps

namespace Tree

def get? (t : Tree) (loc : Loc) : Option Node :=
  if loc = [] then some (.dir 0o755) else (t.nodes.find? (·.1 = loc)).map (·.2)

def put (t : Tree) (loc : Loc) (n : Node) : Tree :=
  { t with nodes := t.nodes.filter (·.1 ≠ loc) ++ [(loc, n)] }

def erase (t : Tree) (loc : Loc) : Tree :=
  { t with nodes := t.nodes.filter fun e => !loc.isPrefixOf e.1 }

/-- Walks pieces from the directory `cur`. `follow` tells whether a link in the
last place is followed; `budget` is the number of links that may still be. -/
def walk (t : Tree) (follow : Bool) (budget : Nat) (cur : Loc) (ps : List String) :
    Except OsError Found :=
  match ps with
  | [] => .ok (.node cur ((t.get? cur).getD (.dir 0o755)))
  | p :: rest =>
    if p = "." then walk t follow budget cur rest
    else if p = ".." then walk t follow budget cur.dropLast rest
    else
      let loc := cur ++ [p]
      match t.get? loc with
      | none => if rest = [] then .ok (.absent loc) else .error .notFound
      | some (.dir _) => walk t follow budget loc rest
      | some (.file b) => if rest = [] then .ok (.node loc (.file b)) else .error .notADirectory
      | some (.link target) =>
        if rest = [] ∧ !follow then .ok (.node loc (.link target))
        else
          match budget with
          | 0 => .error .loop
          | b + 1 =>
            if target = "" then .error .notFound
            else walk t follow b (if isAbsolute target then [] else cur) (walkPieces target ++ rest)
termination_by (budget, ps.length)

/-- Looks a path up. An empty path names nothing. -/
def lookup (t : Tree) (path : String) (follow : Bool) : Except OsError Found :=
  if path = "" then .error .notFound
  else walk t follow linkBudget (if isAbsolute path then [] else t.cwd) (walkPieces path)

/-- The location a path names with every link resolved; it must exist. -/
def canonical (t : Tree) (path : String) : Except OsError Loc :=
  match t.lookup path true with
  | .ok (.node loc _) => .ok loc
  | .ok (.absent _) => .error .notFound
  | .error e => .error e

def readFile (t : Tree) (path : String) : Except OsError (List UInt8) :=
  match t.lookup path true with
  | .ok (.node _ (.file b)) => .ok b
  | .ok (.node _ _) => .error .isADirectory
  | .ok (.absent _) => .error .notFound
  | .error e => .error e

def openDir (t : Tree) (path : String) : Except OsError Loc :=
  match t.lookup path true with
  | .ok (.node loc (.dir _)) => .ok loc
  | .ok (.node _ _) => .error .notADirectory
  | .ok (.absent _) => .error .notFound
  | .error e => .error e

def isFile (t : Tree) (path : String) : Bool :=
  match t.lookup path true with
  | .ok (.node _ (.file _)) => true
  | _ => false

def isDir (t : Tree) (path : String) : Bool :=
  match t.lookup path true with
  | .ok (.node _ (.dir _)) => true
  | _ => false

/-- Makes a directory; anything already at the place, even a dangling link, is
in the way. -/
def mkdir (t : Tree) (path : String) (mode : Nat) : Except OsError Tree :=
  match t.lookup path false with
  | .ok (.absent loc) => .ok (t.put loc (.dir mode))
  | .ok (.node _ _) => .error .alreadyExists
  | .error e => .error e

/-- Where opening a path for writing, creating the file if it is missing,
lands. The names before the last are walked with links followed. The last
name must be a plain name with no separator after it, and must not be a
directory; a link there is followed to the place it names, which obeys the
same rules, up to the link budget. -/
def createAt (t : Tree) (budget : Nat) (cur : Loc) (path : String) : Except OsError Loc :=
  let ps := (pieces path).filter (· ≠ "")
  match ps.getLast? with
  | none => .error .isADirectory
  | some n =>
    match t.walk true budget (if isAbsolute path then [] else cur) (ps.dropLast ++ ["."]) with
    | .error e => .error e
    | .ok (.absent _) => .error .notFound
    | .ok (.node dir _) =>
      if n = "." ∨ n = ".." ∨ path.toList.getLast? = some '/' then .error .isADirectory
      else
        match t.get? (dir ++ [n]), budget with
        | none, _ => .ok (dir ++ [n])
        | some (.file _), _ => .ok (dir ++ [n])
        | some (.dir _), _ => .error .isADirectory
        | some (.link _), 0 => .error .loop
        | some (.link target), b + 1 =>
          if target = "" then .error .notFound else createAt t b dir target

/-- Writes a file, creating it or replacing its bytes, at the place
`createAt` finds. -/
def writeFile (t : Tree) (path : String) (bytes : List UInt8) : Except OsError Tree :=
  if path = "" then .error .notFound
  else (t.createAt linkBudget t.cwd path).map fun loc => t.put loc (.file bytes)

def symlink (t : Tree) (path target : String) : Except OsError Tree :=
  match t.lookup path false with
  | .ok (.absent loc) => .ok (t.put loc (.link target))
  | .ok (.node _ _) => .error .alreadyExists
  | .error e => .error e

def remove (t : Tree) (path : String) : Except OsError Tree :=
  match t.lookup path false with
  | .ok (.node loc _) => .ok (t.erase loc)
  | .ok (.absent _) => .error .notFound
  | .error e => .error e

def prefixPaths (path : String) : List String :=
  ((components path).foldl
    (fun (acc : String × List String) c => (join acc.1 c.text, acc.2 ++ [join acc.1 c.text]))
    ("", [])).2

def createDirAll (t : Tree) (path : String) (mode : Nat) : Except OsError Tree :=
  (prefixPaths path).foldlM
    (fun t p =>
      if t.isDir p then .ok t
      else t.mkdir p mode)
    t

def chmodDirs (t : Tree) (mode : Nat) : Tree :=
  { t with nodes := t.nodes.map fun e => match e.2 with
    | .dir _ => (e.1, .dir mode)
    | n => (e.1, n) }

def listBelow (t : Tree) (base : Loc) : List (String × Node) :=
  let below := t.nodes.filterMap fun e =>
    if base.isPrefixOf e.1 ∧ e.1.length > base.length then
      some ("/".intercalate (e.1.drop base.length), e.2)
    else none
  below.mergeSort fun a b => decide (a.1 ≤ b.1)

end Tree

end Provenance.Files
