/-!
Vpath rules: directory prefixes stripped from recorded paths, so that
dependency lists stay relative to the source tree. A path is shortened by the
most recently added rule that it starts with, followed by a separator, unless
what follows is `../`. Then any leading `./` pieces are dropped, with the
separators after each.
-/

namespace Provenance

structure Vpath where
  rules : List String := []
  deriving DecidableEq, Repr

namespace Vpath

/-- Adds the non-empty colon-separated rules of a spec. -/
def addSpec (v : Vpath) (spec : String) : Vpath :=
  ⟨v.rules ++ ((spec.toList.splitOn ':').filter (· ≠ [])).map String.ofList⟩

/-- Drops leading `./` pieces, and the separators that follow each. -/
def stripDotSlash (cs : List Char) : List Char :=
  match cs with
  | '.' :: '/' :: rest => stripDotSlash (rest.dropWhile (· = '/'))
  | _ => cs
termination_by cs.length
decreasing_by
  simp only [List.length_cons]
  have := (List.dropWhile_suffix (l := rest) (· = '/')).length_le
  omega

/-- What a rule leaves of a path, if the rule applies: the path must start with
the rule and a separator, and the rest must not start with `../`. -/
def strip (rule : List Char) (p : List Char) : Option (List Char) :=
  if rule.isPrefixOf p then
    match p.drop rule.length with
    | '/' :: '.' :: '.' :: '/' :: _ => none
    | '/' :: rest => some rest
    | _ => none
  else none

/-- Shortens a path by the first rule of a list that applies. -/
def stripFirst : List (List Char) → List Char → List Char
  | [], p => p
  | r :: rs, p =>
    match strip r p with
    | some rest => rest
    | none => stripFirst rs p

/-- The path as it is recorded: shortened by the newest applicable rule, then
without leading `./` pieces. -/
def apply (v : Vpath) (p : String) : String :=
  String.ofList (stripDotSlash (stripFirst (v.rules.reverse.map String.toList) p.toList))

end Vpath

end Provenance
