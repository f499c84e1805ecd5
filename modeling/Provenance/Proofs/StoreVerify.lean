import Provenance.Proofs.DocumentParse
import Provenance.Proofs.Utf8RoundTrip
import Provenance.Store.Verify
/-!
What verifying a stored object establishes. Verifying re-hashes the bytes
read under an id with the id's algorithm and then reads them as a document,
whose own header picks the algorithm it is read with. The document returned
is always the one the bytes spell, and the bytes always hash to the id; but
the document's own gitoid is the id only when its header names the id's
algorithm. Bytes that start with the SHA-256 header, filed under their SHA-1
gitoid, verify as a SHA-256 document whose gitoid is not the id asked for.
-/

namespace Provenance.Store

open Text

theorem verifyBytes_eq_ok_iff {id : Gitoid} {read : Option (List UInt8)} {d : Document} :
    verifyBytes id read = .ok d ↔
      read = some (Utf8.encode d.text) ∧ Gitoid.ofBlob id.alg (Utf8.encode d.text) = id ∧
        Document.parse d.text = .ok d := by
  constructor
  · intro verified
    cases read with
    | none => cases verified
    | some bytes =>
      by_cases hashed : Gitoid.ofBlob id.alg bytes = id
      · cases decoded : Utf8.decode bytes with
        | error e => simp [verifyBytes, hashed, decoded] at verified
        | ok text =>
          have parsed : Document.parse text = .ok d := by simpa [verifyBytes, hashed, decoded] using verified
          obtain ⟨-, -, -, rebuilt⟩ := Document.rebuilt_of_parse parsed
          subst rebuilt
          rw [Utf8.encode_of_decode decoded]
          exact ⟨rfl, hashed, parsed⟩
      · simp [verifyBytes, hashed] at verified
  · rintro ⟨rfl, hashed, parsed⟩
    simp [verifyBytes, hashed, parsed]

theorem ofBlob_alg (a : HashAlg) (content : List UInt8) : (Gitoid.ofBlob a content).alg = a := rfl

-- A verified document's gitoid is the id exactly when its algorithm is.
theorem gitoid_eq_iff_of_verified {id : Gitoid} {read : Option (List UInt8)} {d : Document}
    (verified : verifyBytes id read = .ok d) : d.gitoid = id ↔ d.alg = id.alg := by
  obtain ⟨-, hashed, -⟩ := verifyBytes_eq_ok_iff.mp verified
  constructor
  · intro same
    rw [← same, Document.gitoid, ofBlob_alg]
  · intro sameAlg
    rw [Document.gitoid, sameAlg, hashed]

-- The header of one algorithm is no prefix of a text that starts with the other's.
theorem header_prefix_iff (a b : HashAlg) (body : List Char) :
    a.header.toList <+: b.header.toList ++ body ↔ a = b := by
  constructor
  · intro starts
    have taken := List.prefix_iff_eq_take.mp starts
    cases a <;> cases b
    · rfl
    · rw [List.take_append_of_le_length (by simp [HashAlg.header, HashAlg.name])] at taken
      simp [HashAlg.header, HashAlg.name] at taken
    · have first := congrArg (List.take 17) taken
      rw [List.take_take, List.take_append_of_le_length (by simp [HashAlg.header, HashAlg.name])] at first
      simp [HashAlg.header, HashAlg.name] at first
    · rfl
  · rintro rfl
    exact List.prefix_append _ _

-- Whatever a store read, a verified document spells exactly those bytes, and
-- they hash to the id under the id's algorithm; the document is the one the
-- id names exactly when the bytes begin with the header of the id's algorithm.
theorem verified_document_is_requested_iff_header (id : Gitoid) (bytes : List UInt8) (d : Document)
    (verified : verifyBytes id (some bytes) = .ok d) :
    Utf8.encode d.text = bytes ∧ Gitoid.ofBlob id.alg bytes = id ∧
      (d.gitoid = id ↔ d.alg = id.alg) ∧ (d.alg = id.alg ↔ id.alg.header.toList <+: d.text.toList) := by
  obtain ⟨read, hashed, -⟩ := verifyBytes_eq_ok_iff.mp verified
  have spelled : Utf8.encode d.text = bytes := (Option.some.inj read).symm
  refine ⟨spelled, spelled ▸ hashed, gitoid_eq_iff_of_verified verified, ?_⟩
  rw [Document.text_toList, header_prefix_iff, eq_comm]

theorem empty_document_verifies_as_itself :
    verifyBytes (⟨.sha1, []⟩ : Document).gitoid (some (Utf8.encode (⟨.sha1, []⟩ : Document).text)) =
        .ok ⟨.sha1, []⟩ ∧
      Utf8.encode (⟨.sha1, []⟩ : Document).text = Utf8.encode (⟨.sha1, []⟩ : Document).text ∧
      Gitoid.ofBlob (⟨.sha1, []⟩ : Document).gitoid.alg (Utf8.encode (⟨.sha1, []⟩ : Document).text) =
        (⟨.sha1, []⟩ : Document).gitoid ∧
      ((⟨.sha1, []⟩ : Document).gitoid = (⟨.sha1, []⟩ : Document).gitoid ↔
        (⟨.sha1, []⟩ : Document).alg = (⟨.sha1, []⟩ : Document).gitoid.alg) ∧
      ((⟨.sha1, []⟩ : Document).alg = (⟨.sha1, []⟩ : Document).gitoid.alg ↔
        (⟨.sha1, []⟩ : Document).gitoid.alg.header.toList <+: (⟨.sha1, []⟩ : Document).text.toList) := by
  have verified : verifyBytes (⟨.sha1, []⟩ : Document).gitoid
      (some (Utf8.encode (⟨.sha1, []⟩ : Document).text)) = .ok ⟨.sha1, []⟩ :=
    verifyBytes_eq_ok_iff.mpr ⟨rfl, rfl, Document.parse_text (by simp) List.Pairwise.nil⟩
  exact ⟨verified, verified_document_is_requested_iff_header _ _ _ verified⟩

-- The SHA-256 document without entries, filed under the SHA-1 gitoid of its
-- text, passes the re-hash and reads back as a SHA-256 document.
theorem sha256_document_verifies_under_sha1_gitoid :
    verifyBytes (Gitoid.ofBlob .sha1 (Utf8.encode (⟨.sha256, []⟩ : Document).text))
        (some (Utf8.encode (⟨.sha256, []⟩ : Document).text)) = .ok ⟨.sha256, []⟩ ∧
      (⟨.sha256, []⟩ : Document).gitoid ≠ Gitoid.ofBlob .sha1 (Utf8.encode (⟨.sha256, []⟩ : Document).text) ∧
      (⟨.sha256, []⟩ : Document).alg ≠ (Gitoid.ofBlob .sha1 (Utf8.encode (⟨.sha256, []⟩ : Document).text)).alg := by
  have verified : verifyBytes (Gitoid.ofBlob .sha1 (Utf8.encode (⟨.sha256, []⟩ : Document).text))
      (some (Utf8.encode (⟨.sha256, []⟩ : Document).text)) = .ok ⟨.sha256, []⟩ :=
    verifyBytes_eq_ok_iff.mpr ⟨rfl, rfl, Document.parse_text (by simp) List.Pairwise.nil⟩
  have otherAlg : (⟨.sha256, []⟩ : Document).alg ≠
      (Gitoid.ofBlob .sha1 (Utf8.encode (⟨.sha256, []⟩ : Document).text)).alg := by
    rw [ofBlob_alg]
    decide
  exact ⟨verified, fun same => otherAlg ((gitoid_eq_iff_of_verified verified).mp same), otherAlg⟩

end Provenance.Store
