/-!
JSON as the command line writes it: compact on one line, or pretty with two
spaces of indentation per level and `": "` after keys. Strings escape the
quote, the backslash and control characters (`\n`, `\r`, `\t`, `\b`, `\f`,
else `\u00xx`); every other character is written as it is.
-/

namespace Provenance.Text

inductive Json where
  | null
  | bool (b : Bool)
  | num (n : Nat)
  | str (s : String)
  | arr (items : List Json)
  | obj (members : List (String × Json))
  deriving Repr, Inhabited

namespace Json

def quote (s : String) : String :=
  "\"" ++ String.join (s.toList.map fun c =>
    if c = '"' then "\\\""
    else if c = '\\' then "\\\\"
    else if c = '\n' then "\\n"
    else if c = '\r' then "\\r"
    else if c = '\t' then "\\t"
    else if c = '\x08' then "\\b"
    else if c = '\x0c' then "\\f"
    else if c.toNat < 0x20 then
      "\\u" ++ String.ofList ((Nat.toDigits 16 c.toNat).leftpad 4 '0')
    else c.toString) ++ "\""

mutual

def compact : Json → String
  | null => "null"
  | bool b => if b then "true" else "false"
  | num n => toString n
  | str s => quote s
  | arr items => "[" ++ ",".intercalate (compactItems items) ++ "]"
  | obj members => "\x7b" ++ ",".intercalate (compactMembers members) ++ "\x7d"

def compactItems : List Json → List String
  | [] => []
  | j :: rest => compact j :: compactItems rest

def compactMembers : List (String × Json) → List String
  | [] => []
  | (k, j) :: rest => (quote k ++ ":" ++ compact j) :: compactMembers rest

end

def indent (level : Nat) : String := String.ofList (List.replicate (2 * level) ' ')

mutual

def pretty (level : Nat) : Json → String
  | arr [] => "[]"
  | obj [] => "\x7b\x7d"
  | arr items =>
    "[\n" ++ ",\n".intercalate (prettyItems (level + 1) items) ++ "\n" ++ indent level ++ "]"
  | obj members =>
    "\x7b\n" ++ ",\n".intercalate (prettyMembers (level + 1) members) ++ "\n" ++ indent level ++ "\x7d"
  | j => compact j

def prettyItems (level : Nat) : List Json → List String
  | [] => []
  | j :: rest => (indent level ++ pretty level j) :: prettyItems level rest

def prettyMembers (level : Nat) : List (String × Json) → List String
  | [] => []
  | (k, j) :: rest => (indent level ++ quote k ++ ": " ++ pretty level j) :: prettyMembers level rest

end

end Json

end Provenance.Text
