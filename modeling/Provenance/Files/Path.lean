/-!
Path syntax. `/` is the only separator. A path reads as components: the root,
`.` only where it begins a relative path, `..`, and names; empty pieces and
other `.` pieces are dropped, so `a//b/./c/` has the components `a`, `b`,
`c`. File name, stem, parent and joining are defined on the components, as is
making a path absolute against a working directory.
-/

namespace Provenance.Files

inductive Component where
  | root
  | cur
  | parent
  | name (s : String)
  deriving DecidableEq, Repr

def Component.text : Component → String
  | .root => "/"
  | .cur => "."
  | .parent => ".."
  | .name s => s

/-- Components of the pieces between separators; `first` tells whether a `.`
here would begin a relative path. -/
def piecesComponents (first : Bool) : List String → List Component
  | [] => []
  | p :: rest =>
    if p = "" then piecesComponents first rest
    else if p = "." then
      if first then .cur :: piecesComponents false rest else piecesComponents false rest
    else if p = ".." then .parent :: piecesComponents false rest
    else .name p :: piecesComponents false rest

def pieces (p : String) : List String :=
  (p.toList.splitOn '/').map String.ofList

def isAbsolute (p : String) : Bool := p.toList.head? == some '/'

def components (p : String) : List Component :=
  if isAbsolute p then .root :: piecesComponents false (pieces p)
  else
    match pieces p with
    | "." :: rest => .cur :: piecesComponents false rest
    | ps => piecesComponents false ps

/-- `base` followed by `p`: `p` itself if it is absolute, else the two joined by
one separator unless `base` is empty or already ends with one. -/
def join (base p : String) : String :=
  if isAbsolute p then p
  else if base = "" then p
  else if base.toList.getLast? = some '/' then base ++ p
  else base ++ "/" ++ p

def ofComponents (cs : List Component) : String :=
  cs.foldl (fun acc c => join acc c.text) ""

def fileName (p : String) : Option String :=
  match (components p).getLast? with
  | some (.name s) => some s
  | _ => none

/-- The file name up to its last dot; a name whose only dot is its first
character is its own stem. -/
def stemOf (name : String) : String :=
  let cs := name.toList
  match (cs.reverse.dropWhile (· ≠ '.')) with
  | [] => name
  | _ :: before => if before = [] then name else String.ofList before.reverse

def fileStem (p : String) : Option String :=
  (fileName p).map stemOf

def parent (p : String) : Option String :=
  match (components p).getLast? with
  | some .root => none
  | none => none
  | some _ => some (ofComponents (components p).dropLast)

/-- The path made absolute against the working directory `cwd` without looking
at the file system: `.` components go, `..` stay, a trailing separator stays.
An empty path has no absolute form. -/
def absolute (cwd p : String) : Option String :=
  if p = "" then none
  else
    let base := if isAbsolute p then
        if p.startsWith "//" && !p.startsWith "///" then "//" else ""
      else cwd
    let cs := (components p).filter fun c => c ≠ .cur
    let cs := if base = "//" then cs.drop 1 else cs
    let path := cs.foldl (fun acc c => join acc c.text) base
    some (if p.toList.getLast? = some '/' then path ++ (if path.toList.getLast? = some '/' then "" else "/") else path)

end Provenance.Files
