/-!
Names quoted for Make. A `$` is doubled and a `#` gains a backslash. Before a
space or tab, the run of backslashes that precedes it is doubled and one more
is added, so Make reads the run back and sees an escaped blank. Every other
character, including a backslash run before anything else, stands as it is.
-/

namespace Provenance.Make

def quoteChars : Nat → List Char → List Char
  | _, [] => []
  | run, '\\' :: rest => '\\' :: quoteChars (run + 1) rest
  | _, '$' :: rest => '$' :: '$' :: quoteChars 0 rest
  | run, ' ' :: rest => List.replicate (run + 1) '\\' ++ ' ' :: quoteChars 0 rest
  | run, '\t' :: rest => List.replicate (run + 1) '\\' ++ '\t' :: quoteChars 0 rest
  | _, '#' :: rest => '\\' :: '#' :: quoteChars 0 rest
  | _, c :: rest => c :: quoteChars 0 rest

/-- A name quoted for Make, followed by a trail quoted on its own. -/
def quote (name : String) (trail : Option String) : String :=
  String.ofList (quoteChars 0 name.toList ++ quoteChars 0 (trail.getD "").toList)

end Provenance.Make
