import Provenance.Store.Verify
/-!
An object store in memory: each document's text under its gitoid. Writing a
document whose gitoid is already stored keeps the first text.
-/

namespace Provenance.Store

/-- Stored texts by gitoid, in the order first written. -/
structure MemoryStore where
  objects : List (Gitoid × List UInt8) := []

namespace MemoryStore

def read (s : MemoryStore) (id : Gitoid) : Option (List UInt8) :=
  (s.objects.find? (·.1 = id)).map (·.2)

def contains (s : MemoryStore) (id : Gitoid) : Bool :=
  s.objects.any (·.1 = id)

def write (s : MemoryStore) (d : Document) : MemoryStore × Gitoid :=
  let id := d.gitoid
  if s.contains id then (s, id)
  else ({ objects := s.objects ++ [(id, Text.Utf8.encode d.text)] }, id)

def size (s : MemoryStore) : Nat := s.objects.length

def verify (s : MemoryStore) (id : Gitoid) : Except StoreError Document :=
  verifyBytes id (s.read id)

end MemoryStore

end Provenance.Store
