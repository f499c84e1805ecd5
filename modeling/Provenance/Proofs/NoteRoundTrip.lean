import Provenance.Bom.Note
import Mathlib.Algebra.Group.Nat.Defs
/-!
The note format read back. The owner takes eight bytes and both digest
lengths are multiples of four, so a note has no padding: three little-endian
words, the owner, the digest. Decoding one note reads the three words back,
finds the algorithm from the type word, and slices the owner and the digest
where encoding put them, so a note followed by any bytes decodes to itself
and its length. Conversely the checks a decoded note passed fix every byte
it spans: the owner comparison forces the owner size to be eight, the size
check forces the descriptor size, the type word names the algorithm, and a
word is the four bytes it was read from. A section is notes one after
another, and the decoder reads it note by note, so sections are read back
and every section that decodes is the encoding of what it decodes to.
-/

namespace Provenance.Note

/-! Little-endian words. -/

theorem length_le32 (n : Nat) : (le32 n).length = 4 := rfl

theorem readLe32_le32 (n : Nat) (rest : List UInt8) : readLe32 (le32 n ++ rest) = n % 2 ^ 32 := by
  simp [le32, readLe32]
  omega

theorem readLe32_le32_of_lt {n : Nat} (small : n < 2 ^ 32) (rest : List UInt8) :
    readLe32 (le32 n ++ rest) = n := by
  rw [readLe32_le32, Nat.mod_eq_of_lt small]

-- A word read from four bytes is written back as those bytes.
theorem le32_readLe32 {bs : List UInt8} (long : 4 ≤ bs.length) : le32 (readLe32 bs) = bs.take 4 := by
  match bs, long with
  | a :: b :: c :: d :: _, _ =>
    have := a.toNat_lt
    have := b.toNat_lt
    have := c.toNat_lt
    have := d.toNat_lt
    simp only [le32, readLe32, List.take_succ_cons, List.take_zero, List.cons.injEq, and_true]
    refine ⟨?_, ?_, ?_, ?_⟩ <;> apply UInt8.toNat_inj.mp <;> simp <;> omega

/-! The fields of a note. -/

theorem padded_of_dvd {n : Nat} (aligned : 4 ∣ n) : padded n = n := by
  unfold padded
  omega

theorem padBytes_of_dvd {bs : List UInt8} (aligned : 4 ∣ bs.length) : padBytes bs = bs := by
  simp [padBytes, padded_of_dvd aligned]

theorem length_owner : owner.length = 8 := rfl

theorem digestLen_aligned (a : HashAlg) : 4 ∣ a.digestLen := by
  cases a <;> decide

theorem ofNoteType?_noteType (a : HashAlg) : HashAlg.ofNoteType? a.noteType = some a := by
  cases a <;> rfl

theorem noteType_of_ofNoteType? {t : Nat} {a : HashAlg} (found : HashAlg.ofNoteType? t = some a) :
    a.noteType = t := by
  simpa using List.find?_some found

theorem noteType_lt (a : HashAlg) : a.noteType < 2 ^ 32 := by
  cases a <;> decide

theorem digestLen_lt (a : HashAlg) : a.digestLen < 2 ^ 32 := by
  cases a <;> decide

theorem ofDigest_digest (g : Gitoid) : Gitoid.ofDigest g.alg g.digest = .ok g := by
  simp [Gitoid.ofDigest, g.length_digest]

theorem ofDigest_eq_ok {a : HashAlg} {bytes : List UInt8} {g : Gitoid} (made : Gitoid.ofDigest a bytes = .ok g) :
    g.alg = a ∧ g.digest = bytes := by
  unfold Gitoid.ofDigest at made
  split at made
  · cases made
    exact ⟨rfl, rfl⟩
  · cases made

-- The layout without padding: words, owner, digest.
theorem encode_eq (n : Note) :
    n.encode = le32 8 ++ le32 n.document.alg.digestLen ++ le32 n.document.alg.noteType ++
      owner ++ n.document.digest := by
  have ownerAligned : padBytes owner = owner := padBytes_of_dvd (by decide)
  have digestAligned : padBytes n.document.digest = n.document.digest := by
    apply padBytes_of_dvd
    rw [n.document.length_digest]
    exact digestLen_aligned _
  simp [encode, ownerAligned, digestAligned, length_owner, n.document.length_digest]

theorem length_encode (n : Note) : n.encode.length = 20 + n.document.alg.digestLen := by
  simp [encode_eq, length_le32, length_owner, n.document.length_digest]
  omega

theorem padded_ge (n : Nat) : n ≤ padded n := by
  unfold padded
  omega

/-! Where the fields of a note start: after one, two and three words, and after the owner. -/

theorem drop_word (a : Nat) (rest : List UInt8) : (le32 a ++ rest).drop 4 = rest :=
  List.drop_left' (length_le32 a)

theorem drop_two_words (a b : Nat) (rest : List UInt8) : (le32 a ++ (le32 b ++ rest)).drop 8 = rest := by
  simp [le32]

theorem drop_header (a b c : Nat) (rest : List UInt8) :
    (le32 a ++ (le32 b ++ (le32 c ++ rest))).drop headerLen = rest := by
  simp [le32, headerLen]

theorem drop_header_owner (a b c : Nat) (rest : List UInt8) :
    (le32 a ++ (le32 b ++ (le32 c ++ (owner ++ rest)))).drop (headerLen + padded 8) = rest := by
  simp [le32, owner, headerLen, padded]

-- The bytes of a note and what follows it, field by field.
theorem encode_append (g : Gitoid) (rest : List UInt8) :
    encode ⟨g⟩ ++ rest =
      le32 8 ++ (le32 g.alg.digestLen ++ (le32 g.alg.noteType ++ (owner ++ (g.digest ++ rest)))) := by
  simp [encode_eq]

/-! One note. -/

theorem decode_encode_append (g : Gitoid) (rest : List UInt8) :
    decode (encode ⟨g⟩ ++ rest) = .ok (⟨g⟩, 12 + 8 + g.alg.digestLen) := by
  have whole : ¬ (encode ⟨g⟩ ++ rest).length < headerLen := by
    simp [length_encode, headerLen]
    omega
  have spans : 12 + padded 8 + padded g.alg.digestLen = 12 + 8 + g.alg.digestLen := by
    rw [padded_of_dvd (digestLen_aligned _), padded_of_dvd (by decide : 4 ∣ 8)]
  have long : ¬ (encode ⟨g⟩ ++ rest).length < headerLen + padded 8 + padded g.alg.digestLen := by
    simp only [List.length_append, length_encode, headerLen, spans]
    omega
  rw [decode, if_neg whole, encode_append]
  simp only [readLe32_le32_of_lt (by decide : 8 < 2 ^ 32), drop_word, drop_two_words,
    readLe32_le32_of_lt (digestLen_lt _), readLe32_le32_of_lt (noteType_lt _), ofNoteType?_noteType,
    ne_eq, not_true_eq_false, if_false]
  rw [← encode_append, if_neg long, encode_append, drop_header, drop_header_owner,
    List.take_left' length_owner, if_neg (by simp), List.take_left' g.length_digest, ofDigest_digest]
  simp [headerLen, spans]

-- What passing every check of the decoder says about the bytes.
theorem decode_eq_ok {b : List UInt8} {n : Note} {used : Nat} (decoded : decode b = .ok (n, used)) :
    ∃ alg, HashAlg.ofNoteType? (readLe32 (b.drop 8)) = some alg ∧ readLe32 (b.drop 4) = alg.digestLen ∧
      headerLen + padded (readLe32 b) + padded alg.digestLen ≤ b.length ∧
      (b.drop headerLen).take (readLe32 b) = owner ∧
      Gitoid.ofDigest alg ((b.drop (headerLen + padded (readLe32 b))).take alg.digestLen) = .ok n.document ∧
      used = headerLen + padded (readLe32 b) + padded alg.digestLen := by
  unfold decode at decoded
  split at decoded
  · cases decoded
  · dsimp only at decoded
    split at decoded
    · cases decoded
    · rename_i alg found
      split at decoded
      · cases decoded
      · rename_i sized
        split at decoded
        · cases decoded
        · rename_i long
          split at decoded
          · cases decoded
          · rename_i named
            split at decoded
            · cases decoded
            · rename_i g made
              simp only [ne_eq, Decidable.not_not] at sized named
              simp only [Except.ok.injEq, Prod.mk.injEq] at decoded
              obtain ⟨rfl, rfl⟩ := decoded
              refine ⟨alg, found, sized, by rw [← sized]; omega, named, ?_, by rw [sized]⟩
              rw [← sized]
              exact made

-- Whatever passed the checks spans exactly the encoding of the note decoded:
-- comparing the owner forces the owner size to be eight.
theorem take_of_decode {b : List UInt8} {n : Note} {used : Nat} (decoded : decode b = .ok (n, used)) :
    b.take used = n.encode := by
  obtain ⟨alg, found, sized, long, named, made, rfl⟩ := decode_eq_ok decoded
  obtain ⟨algEq, digestEq⟩ := ofDigest_eq_ok made
  have eight : readLe32 b = 8 := by
    have := congrArg List.length named
    have := padded_ge (readLe32 b)
    simp [length_owner, headerLen] at *
    omega
  have spans : headerLen + padded (readLe32 b) + padded alg.digestLen = 4 + (4 + (4 + (8 + alg.digestLen))) := by
    rw [eight, padded_of_dvd (digestLen_aligned alg)]
    simp [headerLen, padded]
    omega
  have word0 : b.take 4 = le32 8 := by rw [← le32_readLe32 (by omega), eight]
  have word1 : (b.drop 4).take 4 = le32 alg.digestLen := by
    rw [← le32_readLe32 (by simp; omega), sized]
  have word2 : (b.drop 8).take 4 = le32 alg.noteType := by
    rw [← le32_readLe32 (by simp; omega), noteType_of_ofNoteType? found]
  rw [spans, List.take_add, List.take_add, List.take_add, List.take_add]
  simp only [eight, headerLen, padded, List.drop_drop, Nat.reduceAdd, Nat.reduceDiv, Nat.reduceMul] at named digestEq ⊢
  rw [word0, word1, word2, named, ← digestEq, encode_eq, algEq]
  simp

/-! Sections: notes one after another. -/

theorem encodeSection_cons (g : Gitoid) (gs : List Gitoid) :
    encodeSection (g :: gs) = encode ⟨g⟩ ++ encodeSection gs := by
  simp [encodeSection]

/-! The section loop, one round at a time. -/

theorem decodeSection_nil : decodeSection [] = .ok [] := by
  rw [decodeSection, dif_pos rfl]

theorem decodeSection_of_decode {bs : List UInt8} {n : Note} {used : Nat} (nonempty : bs ≠ [])
    (decoded : decode bs = .ok (n, used)) : decodeSection bs = (decodeSection (bs.drop used)).map (n :: ·) := by
  rw [decodeSection, dif_neg nonempty]
  split
  · rename_i failed
    rw [decoded] at failed
    cases failed
  · rename_i n' used' decoded'
    rw [decoded] at decoded'
    cases decoded'
    rfl

theorem decodeSection_of_error {bs : List UInt8} {e : StoreError} (nonempty : bs ≠ [])
    (failed : decode bs = .error e) : decodeSection bs = .error e := by
  rw [decodeSection, dif_neg nonempty]
  split
  · rename_i e' failed'
    rw [failed] at failed'
    cases failed'
    rfl
  · rename_i decoded
    rw [failed] at decoded
    cases decoded

theorem decodeSection_encodeSection (gs : List Gitoid) :
    decodeSection (encodeSection gs) = .ok (gs.map Note.mk) := by
  induction gs with
  | nil => exact decodeSection_nil
  | cons g gs ih =>
    have nonempty : encode ⟨g⟩ ++ encodeSection gs ≠ [] := by
      apply List.append_ne_nil_of_left_ne_nil
      rw [← List.length_pos_iff, length_encode]
      omega
    have rest : (encode ⟨g⟩ ++ encodeSection gs).drop (12 + 8 + g.alg.digestLen) = encodeSection gs :=
      List.drop_left' (by rw [length_encode])
    rw [encodeSection_cons, decodeSection_of_decode nonempty (decode_encode_append g _), rest, ih]
    rfl

theorem map_cons_eq_ok {n : Note} {r : Except StoreError (List Note)} {ns : List Note}
    (mapped : r.map (n :: ·) = .ok ns) : ∃ ns', r = .ok ns' ∧ ns = n :: ns' := by
  cases r with
  | error e => cases mapped
  | ok ns' => exact ⟨ns', rfl, by simpa [Except.map] using mapped.symm⟩

-- Each note the section decoder takes is the encoding of what it read, and
-- the rest is read the same way.
theorem encodeSection_of_decodeSection {b : List UInt8} {ns : List Note} (decoded : decodeSection b = .ok ns) :
    encodeSection (ns.map (·.document)) = b := by
  fun_induction decodeSection b generalizing ns with
  | case1 =>
    cases decoded
    rfl
  | case2 => cases decoded
  | case3 b _ n used first ih =>
    obtain ⟨ns', rest, rfl⟩ := map_cons_eq_ok decoded
    rw [List.map_cons, encodeSection_cons, ih rest, ← take_of_decode first]
    exact List.take_append_drop used b

end Provenance.Note

namespace Provenance

open Note

-- The note codec over its whole format: sections of any mix of algorithms
-- read back in order, one note reads back whatever follows it, and the
-- decoders accept only what the encoders write, which is three
-- little-endian words, the owner and the digest, with no padding.
theorem note_decoding_inverts_encoding :
    (∀ gs : List Gitoid, decodeSection (encodeSection gs) = .ok (gs.map Note.mk)) ∧
    (∀ (g : Gitoid) (rest : List UInt8), decode (encode ⟨g⟩ ++ rest) = .ok (⟨g⟩, 12 + 8 + g.alg.digestLen)) ∧
    (∀ (b : List UInt8) (n : Note) (used : Nat), decode b = .ok (n, used) → b.take used = n.encode) ∧
    (∀ (b : List UInt8) (ns : List Note), decodeSection b = .ok ns → encodeSection (ns.map (·.document)) = b) ∧
    ∀ n : Note, n.encode = le32 8 ++ le32 n.document.alg.digestLen ++ le32 n.document.alg.noteType ++
      owner ++ n.document.digest :=
  ⟨decodeSection_encodeSection, decode_encode_append, fun _ _ _ => take_of_decode,
    fun _ _ => encodeSection_of_decodeSection, encode_eq⟩

end Provenance
