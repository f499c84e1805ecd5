import Provenance.Gitoid.Basic
/-!
Hex text read back. The digits writing produces are ASCII, so the UTF-8 bytes
of the text are the digits' own codes; reading takes them two at a time and
rebuilds each byte from its halves. Hence reading a gitoid's hex text under
its own algorithm gives that gitoid back.
-/

namespace Provenance.Text

theorem toList_loop (bs : ByteArray) (i : Nat) (r : List UInt8) :
    ByteArray.toList.loop bs i r = r.reverse ++ bs.data.toList.drop i := by
  fun_induction ByteArray.toList.loop bs i r with
  | case1 i r inside ih =>
    have inData : i < bs.data.toList.length := by simpa using inside
    rw [ih, List.drop_eq_getElem_cons inData]
    simp [ByteArray.get!, getElem!_pos bs.data i (by simpa using inside)]
  | case2 i r outside =>
    have : bs.data.toList.length ≤ i := by simpa using outside
    simp [List.drop_eq_nil_of_le this]

theorem toList_toUTF8_ofList (cs : List Char) :
    (String.ofList cs).toUTF8.toList = cs.flatMap String.utf8EncodeChar := by
  simp [ByteArray.toList, toList_loop, List.utf8Encode]

namespace Hex

def digitByte (n : Nat) : UInt8 := UInt8.ofNat (digitChar n).toNat

theorem utf8EncodeChar_digitChar {n : Nat} (small : n < 16) :
    String.utf8EncodeChar (digitChar n) = [digitByte n] := by
  have table : ∀ m < 16, String.utf8EncodeChar (digitChar m) = [digitByte m] := by decide
  exact table n small

theorem digitValue_digitByte {n : Nat} (small : n < 16) : digitValue (digitByte n) = some n := by
  have table : ∀ m < 16, digitValue (digitByte m) = some m := by decide
  exact table n small

theorem digitChar_not_line_end {n : Nat} (small : n < 16) :
    digitChar n ≠ '\n' ∧ digitChar n ≠ '\r' := by
  have table : ∀ m < 16, digitChar m ≠ '\n' ∧ digitChar m ≠ '\r' := by decide
  exact table n small

theorem halves_lt (b : UInt8) : b.toNat / 16 < 16 ∧ b.toNat % 16 < 16 := by
  have := b.toNat_lt
  omega

def pairBytes (b : UInt8) : List UInt8 := [digitByte (b.toNat / 16), digitByte (b.toNat % 16)]

theorem encodeChars_bytes (bs : List UInt8) :
    (encodeChars bs).flatMap String.utf8EncodeChar = bs.flatMap pairBytes := by
  induction bs with
  | nil => rfl
  | cons b rest ih =>
    have ⟨high, low⟩ := halves_lt b
    simp only [encodeChars, List.flatMap_cons, List.flatMap_append] at ih ⊢
    simp [pair, pairBytes, ih, utf8EncodeChar_digitChar high, utf8EncodeChar_digitChar low]

theorem decodePairs_pairBytes (pos : Nat) (bs : List UInt8) :
    decodePairs pos (bs.flatMap pairBytes) = .ok bs := by
  induction bs generalizing pos with
  | nil => rfl
  | cons b rest ih =>
    have ⟨high, low⟩ := halves_lt b
    have rebuilt : UInt8.ofNat (16 * (b.toNat / 16) + b.toNat % 16) = b := by
      rw [Nat.div_add_mod, UInt8.ofNat_toNat]
    simp [pairBytes, decodePairs, digitValue_digitByte high, digitValue_digitByte low, ih,
      rebuilt, Except.map]

theorem length_flatMap_pairBytes (bs : List UInt8) : (bs.flatMap pairBytes).length = 2 * bs.length := by
  induction bs with
  | nil => rfl
  | cons b rest ih =>
    simp only [List.flatMap_cons, List.length_append, ih, List.length_cons]
    simp [pairBytes]
    omega

-- Reading what writing produced gives the bytes back.
theorem decode_encode (bs : List UInt8) : decode (encode bs) = .ok bs := by
  simp only [decode, encode, toList_toUTF8_ofList, encodeChars_bytes, decodeBytes, length_flatMap_pairBytes]
  simp [decodePairs_pairBytes]

theorem not_line_end_of_mem_encodeChars {c : Char} {bs : List UInt8} (mem : c ∈ encodeChars bs) :
    c ≠ '\n' ∧ c ≠ '\r' := by
  obtain ⟨b, -, inPair⟩ := List.mem_flatMap.mp mem
  have ⟨high, low⟩ := halves_lt b
  simp only [pair, List.mem_cons, List.not_mem_nil, or_false] at inPair
  rcases inPair with rfl | rfl
  · exact digitChar_not_line_end high
  · exact digitChar_not_line_end low

end Hex

end Provenance.Text

namespace Provenance.Gitoid

theorem ofHex_toHex (g : Gitoid) : ofHex g.alg g.toHex = .ok g := by
  simp [ofHex, toHex, Text.Hex.decode_encode, ofDigest, g.length_digest]

end Provenance.Gitoid
