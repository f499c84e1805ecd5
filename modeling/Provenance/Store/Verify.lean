import Provenance.Bom.Document
/-!
Verifying a stored object: the bytes read under an id must exist, hash to
that id under the id's algorithm, be UTF-8, and read as a document. The
document's own header decides the algorithm it is read with.
-/

namespace Provenance.Store

/-- The document the bytes stored under `id` hold, checked against `id`. -/
def verifyBytes (id : Gitoid) : Option (List UInt8) → Except StoreError Document
  | none => .error (.notFound id)
  | some bytes =>
    let computed := Gitoid.ofBlob id.alg bytes
    if computed ≠ id then .error (.hashMismatch id computed.toHex)
    else
      match Text.Utf8.decode bytes with
      | .error e => .error (.malformedDocument (.notUtf8 e))
      | .ok text => Document.parse text

end Provenance.Store
