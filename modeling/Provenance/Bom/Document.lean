import Provenance.Store.Error
import Provenance.Gitoid.Blob
/-!
BOM documents. A document lists the gitoids of a build's inputs under one
algorithm: the header line `gitoid:blob:<alg>`, then one line `blob <hex>`
per entry, entries in ascending order, duplicates kept. Its own gitoid is the
blob gitoid of that text. Reading a text accepts exactly the texts that
writing produces; every other text is refused with the first fault found.
-/

namespace Provenance

open Text

/-- A BOM document: an algorithm and its entries, in ascending order. -/
structure Document where
  alg : HashAlg
  entries : List Gitoid
  deriving DecidableEq

namespace Document

def entryPrefix : String := "blob "

def entryLine (g : Gitoid) : String := entryPrefix ++ g.toHex ++ "\n"

def text (d : Document) : String :=
  d.alg.header ++ String.join (d.entries.map entryLine)

def gitoid (d : Document) : Gitoid :=
  Gitoid.ofBlob d.alg (Utf8.encode d.text)

/-- Gitoids in ascending order, equal ones kept in their order. -/
def sortGitoids (gs : List Gitoid) : List Gitoid :=
  gs.mergeSort Gitoid.le

/-- The document of some gitoids of one algorithm; the first entry of another
algorithm is refused. -/
def ofGitoids (alg : HashAlg) (gs : List Gitoid) : Except StoreError Document :=
  match gs.find? (·.alg ≠ alg) with
  | some g => .error (.algorithmMismatch alg g.alg)
  | none => .ok ⟨alg, sortGitoids gs⟩

/-- The lines of a body that ends in a line feed, a carriage return before each
line feed removed. -/
def bodyLines (body : List Char) : List (List Char) :=
  ((body.splitOn '\n').dropLast).map fun l =>
    if l.getLast? = some '\r' then l.dropLast else l

def readEntries (alg : HashAlg) (n : Nat) : List (List Char) → Except StoreError (List Gitoid)
  | [] => .ok []
  | l :: rest =>
    if entryPrefix.toList.isPrefixOf l then
      match Gitoid.ofHex alg (String.ofList (l.drop entryPrefix.length)) with
      | .error e => .error (.value e)
      | .ok g => (readEntries alg (n + 1) rest).map (g :: ·)
    else .error (.malformedDocument (.notBlobEntry n))

def ascending : List Gitoid → Bool
  | a :: b :: rest => Gitoid.le a b && ascending (b :: rest)
  | _ => true

/-- Reads a document text. The checks, in order: a known header, a final line
feed, entry lines, ascending entries, and the text being the document's own. -/
def parse (t : String) : Except StoreError Document :=
  match HashAlg.all.find? (fun a => a.header.toList.isPrefixOf t.toList) with
  | none => .error (.malformedDocument .unknownHeader)
  | some alg =>
    let body := t.toList.drop alg.header.length
    if body ≠ [] ∧ body.getLast? ≠ some '\n' then
      .error (.malformedDocument .missingTrailingNewline)
    else
      match readEntries alg 2 (bodyLines body) with
      | .error e => .error e
      | .ok entries =>
        if !ascending entries then .error (.malformedDocument .unsorted)
        else
          match ofGitoids alg entries with
          | .error e => .error e
          | .ok d => if d.text = t then .ok d else .error (.malformedDocument .notCanonical)

end Document

end Provenance
