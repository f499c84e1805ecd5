import Provenance.Store.Error
/-!
The OmniBOR note: an ELF note that points an object file at its BOM document.
In little-endian 32-bit words it is the owner size 8, the descriptor size
(the digest length), the type (1 for SHA-1, 2 for SHA-256), then the owner
`OMNIBOR\0` and the raw digest, each padded to four bytes. A section is notes
one after another. Decoding accepts nothing but what encoding writes.
-/

namespace Provenance

structure Note where
  document : Gitoid
  deriving DecidableEq

namespace Note

/-- A number as four little-endian bytes, modulo `2 ^ 32`. -/
def le32 (n : Nat) : List UInt8 :=
  [UInt8.ofNat n, UInt8.ofNat (n / 256), UInt8.ofNat (n / 65536), UInt8.ofNat (n / 16777216)]

def readLe32 (bs : List UInt8) : Nat :=
  match bs with
  | a :: b :: c :: d :: _ => a.toNat + 256 * b.toNat + 65536 * c.toNat + 16777216 * d.toNat
  | _ => 0

def padded (n : Nat) : Nat := (n + 3) / 4 * 4

def padBytes (bs : List UInt8) : List UInt8 :=
  bs ++ List.replicate (padded bs.length - bs.length) 0

def owner : List UInt8 := [0x4f, 0x4d, 0x4e, 0x49, 0x42, 0x4f, 0x52, 0x00]

def headerLen : Nat := 12

def encode (n : Note) : List UInt8 :=
  le32 owner.length ++ le32 n.document.digest.length ++ le32 n.document.alg.noteType ++
    padBytes owner ++ padBytes n.document.digest

def encodeSection (gs : List Gitoid) : List UInt8 :=
  gs.flatMap fun g => encode ⟨g⟩

/-- Decodes the note at the front of some bytes, with the number of bytes it
spans. The checks, in order: the header is there, the type is known, the
descriptor size is the digest length, all bytes are there, the owner is right. -/
def decode (bs : List UInt8) : Except StoreError (Note × Nat) :=
  if bs.length < headerLen then .error (.malformedNote (.short bs.length))
  else
    let namesz := readLe32 bs
    let descsz := readLe32 (bs.drop 4)
    let type := readLe32 (bs.drop 8)
    match HashAlg.ofNoteType? type with
    | none => .error (.malformedNote (.unknownType type))
    | some alg =>
      if descsz ≠ alg.digestLen then .error (.malformedNote (.descriptorSize alg descsz))
      else
        let descStart := headerLen + padded namesz
        let stop := descStart + padded descsz
        if bs.length < stop then .error (.malformedNote .truncated)
        else if (bs.drop headerLen).take namesz ≠ owner then .error (.malformedNote .wrongOwner)
        else
          match Gitoid.ofDigest alg ((bs.drop descStart).take descsz) with
          | .error e => .error (.value e)
          | .ok g => .ok (⟨g⟩, stop)

-- A note spans its header at least, so the section loop below ends.
theorem headerLen_le_of_decode {bs : List UInt8} {n : Note} {used : Nat} (decoded : decode bs = .ok (n, used)) :
    headerLen ≤ used := by
  unfold decode at decoded
  split at decoded
  · cases decoded
  · dsimp only at decoded
    split at decoded
    · cases decoded
    · split at decoded
      · cases decoded
      · split at decoded
        · cases decoded
        · split at decoded
          · cases decoded
          · split at decoded
            · cases decoded
            · cases decoded
              omega

def decodeSection (bs : List UInt8) : Except StoreError (List Note) :=
  if _hbs : bs = [] then .ok []
  else
    match _decoded : decode bs with
    | .error e => .error e
    | .ok (n, used) => (decodeSection (bs.drop used)).map (n :: ·)
termination_by bs.length
decreasing_by
  have : 0 < bs.length := List.length_pos_iff.mpr _hbs
  have : headerLen ≤ used := headerLen_le_of_decode _decoded
  simp only [List.length_drop, headerLen] at *
  omega

end Note

end Provenance
