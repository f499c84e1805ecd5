import Provenance.Files.Tree
import Provenance.Store.Error
/-!
Walking down to a store directory one level at a time. Each level is opened
as a directory handle; a missing level named by a plain name is created with
mode 700 first, while the root, `.` and `..` levels are only opened. A level
that cannot be opened stops the walk. Whatever happens, every handle the walk
opened is released before the call returns, so only the count of handles
ever opened grows.
-/

namespace Provenance.Store

open Files

structure Handles where
  live : Nat := 0
  total : Nat := 0
  deriving DecidableEq, Repr

def Handles.acquire (h : Handles) : Handles := ⟨h.live + 1, h.total + 1⟩

def Handles.release (h : Handles) (n : Nat) : Handles := { h with live := h.live - n }

structure Disk where
  tree : Tree
  handles : Handles := {}

def dirMode : Nat := 0o700

abbrev Level := String × Bool

/-- The levels of a store root: one per component, each path the components so
far; an empty root is `.`. -/
def rootLevels (root : String) : List Level :=
  let root := if root = "" then "." else root
  ((components root).foldl
    (fun (acc : String × List Level) c =>
      let p := join acc.1 c.text
      (p, acc.2 ++ [(p, match c with | .name _ => true | _ => false)]))
    ("", [])).2

def descendLevels : String → List String → List Level
  | _, [] => []
  | dir, n :: ns => (join dir n, true) :: descendLevels (join dir n) ns

def levels (root : String) (names : List String) : List Level :=
  let r := rootLevels root
  r ++ descendLevels ((r.getLast?.map (·.1)).getD ".") names

def lastPath (ls : List Level) : String := (ls.getLast?.map (·.1)).getD "."

/-- Opens one level, creating it first if it may be and is missing; a creation
that finds something in the way is no error, but the level must then open. -/
def enter (d : Disk) (level : Level) : Disk × Except StoreError Unit :=
  let (path, create) := level
  match d.tree.openDir path with
  | .ok _ => ({ d with handles := d.handles.acquire }, .ok ())
  | .error .notFound =>
    if create then
      let t : Except OsError Tree := match d.tree.mkdir path dirMode with
        | .ok t => .ok t
        | .error .alreadyExists => .ok d.tree
        | .error e => .error e
      match t with
      | .error e => (d, .error (.directory path e))
      | .ok t =>
        match t.openDir path with
        | .ok _ => ({ tree := t, handles := d.handles.acquire }, .ok ())
        | .error e => ({ d with tree := t }, .error (.directory path e))
    else (d, .error (.directory path .notFound))
  | .error e => (d, .error (.directory path e))

def enterAll (d : Disk) : List Level → Disk × Nat × Except StoreError Unit
  | [] => (d, 0, .ok ())
  | l :: ls =>
    match enter d l with
    | (d', .error e) => (d', 0, .error e)
    | (d', .ok ()) =>
      let (d'', n, r) := enterAll d' ls
      (d'', n + 1, r)

/-- Walks the levels, runs `leaf` in the last one, then releases every handle
the walk opened. -/
def withLevels (d : Disk) (ls : List Level) (leaf : Disk → String → Disk × Except StoreError α) :
    Disk × Except StoreError α :=
  let (d1, n, r) := enterAll d ls
  let (d2, r2) : Disk × Except StoreError α := match r with
    | .error e => (d1, .error e)
    | .ok () => leaf d1 (lastPath ls)
  ({ d2 with handles := d2.handles.release n }, r2)

def writeLeaf (d : Disk) (path : String) (bytes : List UInt8) : Disk × Except StoreError Unit :=
  match d.tree.writeFile path bytes with
  | .ok t => ({ d with tree := t }, .ok ())
  | .error e => (d, .error (.write path e))

end Provenance.Store
