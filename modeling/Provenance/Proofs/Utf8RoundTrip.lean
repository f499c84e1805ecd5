import Provenance.Text.Utf8
import Provenance.Proofs.HexRoundTrip
import Mathlib.Tactic.SplitIfs
/-!
Reading UTF-8 back. The bytes a character is written as fall in exactly the
ranges the reader expects of a sequence of that width: the first byte tells
the width, the others are continuation bytes, and the second byte after
`E0`, `ED`, `F0` and `F4` stays inside the narrower range that rules out
overlong forms, surrogates and code points past U+10FFFF. The reader then
puts the code point together from the same bit fields, so reading the bytes
of any text gives that text back.
-/

namespace Provenance.Text.Utf8

theorem toNat_valid (c : Char) : c.toNat < 0xd800 ∨ (0xdfff < c.toNat ∧ c.toNat < 0x110000) :=
  c.valid

theorem width_eq_one {b : UInt8} (hi : b.toNat < 0x80) : width b = 1 := by
  rw [width, if_pos hi]

theorem width_eq_two {b : UInt8} (lo : 0xc2 ≤ b.toNat) (hi : b.toNat ≤ 0xdf) : width b = 2 := by
  rw [width, if_neg (by omega), if_pos ⟨lo, hi⟩]

theorem width_eq_three {b : UInt8} (lo : 0xe0 ≤ b.toNat) (hi : b.toNat ≤ 0xef) : width b = 3 := by
  rw [width, if_neg (by omega), if_neg (by omega), if_pos ⟨lo, hi⟩]

theorem width_eq_four {b : UInt8} (lo : 0xf0 ≤ b.toNat) (hi : b.toNat ≤ 0xf4) : width b = 4 := by
  rw [width, if_neg (by omega), if_neg (by omega), if_neg (by omega), if_pos ⟨lo, hi⟩]

theorem isCont_of_range {b : UInt8} (lo : 0x80 ≤ b.toNat) (hi : b.toNat ≤ 0xbf) : isCont b := by
  simp [isCont, lo, hi]

/-! One step of the reader for each width, once the bytes are known to be well formed. -/

theorem decodeFrom_one {b : UInt8} (w : width b = 1) (pos : Nat) (rest : List UInt8) :
    decodeFrom pos (b :: rest) = (decodeFrom (pos + 1) rest).map (Char.ofNat b.toNat :: ·) := by
  rw [decodeFrom.eq_def]
  simp [w]

theorem decodeFrom_two {b c : UInt8} (w : width b = 2) (hc : isCont c) (pos : Nat) (rest : List UInt8) :
    decodeFrom pos (b :: c :: rest) =
      (decodeFrom (pos + 2) rest).map (Char.ofNat ((b.toNat % 32) * 64 + low6 c) :: ·) := by
  rw [decodeFrom.eq_def]
  simp [w, hc]

theorem decodeFrom_three {b c d : UInt8} (w : width b = 3) (hc : secondOk b c) (hd : isCont d)
    (pos : Nat) (rest : List UInt8) :
    decodeFrom pos (b :: c :: d :: rest) =
      (decodeFrom (pos + 3) rest).map (Char.ofNat ((b.toNat % 16) * 4096 + low6 c * 64 + low6 d) :: ·) := by
  rw [decodeFrom.eq_def]
  simp [w, hc, hd]

theorem decodeFrom_four {b c d e : UInt8} (w : width b = 4) (hc : secondOk b c) (hd : isCont d)
    (he : isCont e) (pos : Nat) (rest : List UInt8) :
    decodeFrom pos (b :: c :: d :: e :: rest) =
      (decodeFrom (pos + 4) rest).map
        (Char.ofNat ((b.toNat % 8) * 262144 + low6 c * 4096 + low6 d * 64 + low6 e) :: ·) := by
  rw [decodeFrom.eq_def]
  simp [w, hc, hd, he]

theorem toNat_ofNat_byte {n : Nat} (small : n < 256) : (UInt8.ofNat n).toNat = n :=
  UInt8.toNat_ofNat_of_lt' small

/-! The bytes `utf8EncodeChar` writes, one lemma per width it picks by code point. -/

theorem utf8EncodeChar_one {c : Char} (range : c.toNat ≤ 0x7f) :
    String.utf8EncodeChar c = [UInt8.ofNat c.toNat] := by
  simp only [String.utf8EncodeChar, Char.toNat_val]
  rw [if_pos range]

theorem utf8EncodeChar_two {c : Char} (range : 0x7f < c.toNat ∧ c.toNat ≤ 0x7ff) :
    String.utf8EncodeChar c = [UInt8.ofNat (c.toNat / 64 % 32 + 192), UInt8.ofNat (c.toNat % 64 + 128)] := by
  simp only [String.utf8EncodeChar, Char.toNat_val]
  rw [if_neg (by omega), if_pos range.2]

theorem utf8EncodeChar_three {c : Char} (range : 0x7ff < c.toNat ∧ c.toNat ≤ 0xffff) :
    String.utf8EncodeChar c =
      [UInt8.ofNat (c.toNat / 4096 % 16 + 224), UInt8.ofNat (c.toNat / 64 % 64 + 128),
        UInt8.ofNat (c.toNat % 64 + 128)] := by
  simp only [String.utf8EncodeChar, Char.toNat_val]
  rw [if_neg (by omega), if_neg (by omega), if_pos range.2]

theorem utf8EncodeChar_four {c : Char} (range : 0xffff < c.toNat) :
    String.utf8EncodeChar c =
      [UInt8.ofNat (c.toNat / 262144 % 8 + 240), UInt8.ofNat (c.toNat / 4096 % 64 + 128),
        UInt8.ofNat (c.toNat / 64 % 64 + 128), UInt8.ofNat (c.toNat % 64 + 128)] := by
  simp only [String.utf8EncodeChar, Char.toNat_val]
  rw [if_neg (by omega), if_neg (by omega), if_neg (by omega)]

-- The four cases are the four widths `utf8EncodeChar` chooses by code point;
-- in each the bytes are written out from its definition and checked against
-- the reader's ranges by arithmetic on the code point.
theorem decodeFrom_utf8EncodeChar (pos : Nat) (c : Char) (rest : List UInt8) :
    decodeFrom pos (String.utf8EncodeChar c ++ rest) = (decodeFrom (pos + c.utf8Size) rest).map (c :: ·) := by
  have valid := toNat_valid c
  obtain size | size | size | size := Char.utf8Size_eq c
  · have range : c.toNat ≤ 0x7f := by
      simpa [UInt32.le_iff_toNat_le] using Char.utf8Size_eq_one_iff.mp size
    have bytes := utf8EncodeChar_one range
    have b0 := toNat_ofNat_byte (show c.toNat < 256 by omega)
    rw [bytes, size, List.singleton_append, decodeFrom_one (width_eq_one (by omega)), b0, Char.ofNat_toNat]
  · have range : 0x7f < c.toNat ∧ c.toNat ≤ 0x7ff := by
      simpa [UInt32.le_iff_toNat_le, UInt32.lt_iff_toNat_lt] using Char.utf8Size_eq_two_iff.mp size
    have bytes := utf8EncodeChar_two range
    have b0 := toNat_ofNat_byte (show c.toNat / 64 % 32 + 192 < 256 by omega)
    have b1 := toNat_ofNat_byte (show c.toNat % 64 + 128 < 256 by omega)
    have whole : (c.toNat / 64 % 32 + 192) % 32 * 64 + (c.toNat % 64 + 128) % 64 = c.toNat := by omega
    rw [bytes, size, List.cons_append, List.cons_append, List.nil_append,
      decodeFrom_two (width_eq_two (by omega) (by omega)) (isCont_of_range (by omega) (by omega)),
      low6, b0, b1, whole, Char.ofNat_toNat]
  · have range : 0x7ff < c.toNat ∧ c.toNat ≤ 0xffff := by
      simpa [UInt32.le_iff_toNat_le, UInt32.lt_iff_toNat_lt] using Char.utf8Size_eq_three_iff.mp size
    have bytes := utf8EncodeChar_three range
    have b0 := toNat_ofNat_byte (show c.toNat / 4096 % 16 + 224 < 256 by omega)
    have b1 := toNat_ofNat_byte (show c.toNat / 64 % 64 + 128 < 256 by omega)
    have b2 := toNat_ofNat_byte (show c.toNat % 64 + 128 < 256 by omega)
    -- After `E0` the code point is at least U+0800, after `ED` it is no surrogate.
    have second : secondOk (UInt8.ofNat (c.toNat / 4096 % 16 + 224)) (UInt8.ofNat (c.toNat / 64 % 64 + 128)) := by
      simp only [secondOk, secondRange, b0, b1]
      split_ifs <;> simp <;> omega
    have whole : (c.toNat / 4096 % 16 + 224) % 16 * 4096 + (c.toNat / 64 % 64 + 128) % 64 * 64 +
        (c.toNat % 64 + 128) % 64 = c.toNat := by omega
    rw [bytes, size, List.cons_append, List.cons_append, List.cons_append, List.nil_append,
      decodeFrom_three (width_eq_three (by omega) (by omega)) second (isCont_of_range (by omega) (by omega)),
      low6, low6, b0, b1, b2, whole, Char.ofNat_toNat]
  · have range : 0xffff < c.toNat := by
      simpa [UInt32.le_iff_toNat_le, UInt32.lt_iff_toNat_lt] using Char.utf8Size_eq_four_iff.mp size
    have bytes := utf8EncodeChar_four range
    have b0 := toNat_ofNat_byte (show c.toNat / 262144 % 8 + 240 < 256 by omega)
    have b1 := toNat_ofNat_byte (show c.toNat / 4096 % 64 + 128 < 256 by omega)
    have b2 := toNat_ofNat_byte (show c.toNat / 64 % 64 + 128 < 256 by omega)
    have b3 := toNat_ofNat_byte (show c.toNat % 64 + 128 < 256 by omega)
    -- After `F0` the code point is at least U+10000, after `F4` at most U+10FFFF.
    have second : secondOk (UInt8.ofNat (c.toNat / 262144 % 8 + 240)) (UInt8.ofNat (c.toNat / 4096 % 64 + 128)) := by
      simp only [secondOk, secondRange, b0, b1]
      split_ifs <;> simp <;> omega
    have whole : (c.toNat / 262144 % 8 + 240) % 8 * 262144 + (c.toNat / 4096 % 64 + 128) % 64 * 4096 +
        (c.toNat / 64 % 64 + 128) % 64 * 64 + (c.toNat % 64 + 128) % 64 = c.toNat := by omega
    rw [bytes, size, List.cons_append, List.cons_append, List.cons_append, List.cons_append, List.nil_append,
      decodeFrom_four (width_eq_four (by omega) (by omega)) second (isCont_of_range (by omega) (by omega))
        (isCont_of_range (by omega) (by omega)),
      low6, low6, low6, b0, b1, b2, b3, whole, Char.ofNat_toNat]

theorem decodeFrom_flatMap (pos : Nat) (cs : List Char) :
    decodeFrom pos (cs.flatMap String.utf8EncodeChar) = .ok cs := by
  induction cs generalizing pos with
  | nil => rw [List.flatMap_nil, decodeFrom]
  | cons c rest ih =>
    rw [List.flatMap_cons, decodeFrom_utf8EncodeChar, ih]
    rfl

theorem encode_eq_flatMap (s : String) : encode s = s.toList.flatMap String.utf8EncodeChar := by
  rw [encode, ← toList_toUTF8_ofList, String.ofList_toList]

@[simp] theorem decode_encode (s : String) : decode (encode s) = .ok s := by
  rw [decode, encode_eq_flatMap, decodeFrom_flatMap]
  simp [Except.map]

/-! The converse: the reader accepts nothing but the bytes of a text. Each
well-formed sequence holds the code point of a valid character, and writing
that character gives the same bytes, since the bit fields are the same. -/

theorem toNat_ofNat_char {n : Nat} (valid : n < 0xd800 ∨ (0xdfff < n ∧ n < 0x110000)) :
    (Char.ofNat n).toNat = n := by
  have valid : n.isValidChar := valid
  calc (Char.ofNat n).toNat = (Char.ofNatAux n valid).toNat := by rw [Char.ofNat, dif_pos valid]
    _ = n := rfl

theorem range_of_width_one {b : UInt8} (w : width b = 1) : b.toNat < 0x80 := by
  unfold width at w
  split_ifs at w <;> omega

theorem range_of_width_two {b : UInt8} (w : width b = 2) : 0xc2 ≤ b.toNat ∧ b.toNat ≤ 0xdf := by
  unfold width at w
  split_ifs at w <;> omega

theorem range_of_width_three {b : UInt8} (w : width b = 3) : 0xe0 ≤ b.toNat ∧ b.toNat ≤ 0xef := by
  unfold width at w
  split_ifs at w <;> omega

theorem range_of_width_four {b : UInt8} (w : width b = 4) : 0xf0 ≤ b.toNat ∧ b.toNat ≤ 0xf4 := by
  unfold width at w
  split_ifs at w <;> omega

theorem range_of_isCont {c : UInt8} (h : isCont c) : 0x80 ≤ c.toNat ∧ c.toNat ≤ 0xbf := by
  simpa [isCont] using h

theorem range_of_secondOk {b c : UInt8} (h : secondOk b c) :
    0x80 ≤ c.toNat ∧ c.toNat ≤ 0xbf ∧ (b.toNat = 0xe0 → 0xa0 ≤ c.toNat) ∧ (b.toNat = 0xed → c.toNat ≤ 0x9f) ∧
      (b.toNat = 0xf0 → 0x90 ≤ c.toNat) ∧ (b.toNat = 0xf4 → c.toNat ≤ 0x8f) := by
  unfold secondOk secondRange at h
  split_ifs at h <;> simp at h <;> omega

theorem ofNat_eq_byte {n : Nat} {b : UInt8} (same : n = b.toNat) : UInt8.ofNat n = b :=
  UInt8.toNat_inj.mp (by rw [toNat_ofNat_byte (same ▸ b.toNat_lt), same])

theorem utf8EncodeChar_of_width_one {b : UInt8} (w : width b = 1) :
    String.utf8EncodeChar (Char.ofNat b.toNat) = [b] := by
  have lo := range_of_width_one w
  have code : (Char.ofNat b.toNat).toNat = b.toNat := toNat_ofNat_char (by omega)
  rw [utf8EncodeChar_one (by omega), code, ofNat_eq_byte rfl]

theorem utf8EncodeChar_of_width_two {b c : UInt8} (w : width b = 2) (hc : isCont c) :
    String.utf8EncodeChar (Char.ofNat ((b.toNat % 32) * 64 + low6 c)) = [b, c] := by
  have lead := range_of_width_two w
  have cont := range_of_isCont hc
  have code : (Char.ofNat ((b.toNat % 32) * 64 + low6 c)).toNat = (b.toNat % 32) * 64 + c.toNat % 64 :=
    toNat_ofNat_char (by unfold low6; omega)
  rw [utf8EncodeChar_two (by omega), code]
  simp only [List.cons.injEq, and_true]
  refine ⟨ofNat_eq_byte ?_, ofNat_eq_byte ?_⟩ <;> omega

theorem utf8EncodeChar_of_width_three {b c d : UInt8} (w : width b = 3) (hc : secondOk b c) (hd : isCont d) :
    String.utf8EncodeChar (Char.ofNat ((b.toNat % 16) * 4096 + low6 c * 64 + low6 d)) = [b, c, d] := by
  have lead := range_of_width_three w
  have second := range_of_secondOk hc
  have cont := range_of_isCont hd
  -- `E0` rules out overlong forms and `ED` the surrogates, so the code point is valid.
  have code : (Char.ofNat ((b.toNat % 16) * 4096 + low6 c * 64 + low6 d)).toNat =
      (b.toNat % 16) * 4096 + c.toNat % 64 * 64 + d.toNat % 64 := by
    unfold low6
    apply toNat_ofNat_char
    by_cases surrogate : b.toNat = 0xed <;> omega
  rw [utf8EncodeChar_three (by omega), code]
  simp only [List.cons.injEq, and_true]
  refine ⟨ofNat_eq_byte ?_, ofNat_eq_byte ?_, ofNat_eq_byte ?_⟩ <;> omega

theorem utf8EncodeChar_of_width_four {b c d e : UInt8} (w : width b = 4) (hc : secondOk b c) (hd : isCont d)
    (he : isCont e) :
    String.utf8EncodeChar (Char.ofNat ((b.toNat % 8) * 262144 + low6 c * 4096 + low6 d * 64 + low6 e)) =
      [b, c, d, e] := by
  have lead := range_of_width_four w
  have second := range_of_secondOk hc
  have third := range_of_isCont hd
  have fourth := range_of_isCont he
  -- `F0` rules out overlong forms and `F4` code points past U+10FFFF.
  have code : (Char.ofNat ((b.toNat % 8) * 262144 + low6 c * 4096 + low6 d * 64 + low6 e)).toNat =
      (b.toNat % 8) * 262144 + c.toNat % 64 * 4096 + d.toNat % 64 * 64 + e.toNat % 64 := by
    unfold low6
    apply toNat_ofNat_char
    by_cases top : b.toNat = 0xf4 <;> omega
  rw [utf8EncodeChar_four (by omega), code]
  simp only [List.cons.injEq, and_true]
  refine ⟨ofNat_eq_byte ?_, ofNat_eq_byte ?_, ofNat_eq_byte ?_, ofNat_eq_byte ?_⟩ <;> omega

theorem map_eq_ok {α β ε : Type} {f : α → β} {x : Except ε α} {b : β} (mapped : x.map f = .ok b) :
    ∃ a, x = .ok a ∧ f a = b := by
  cases x with
  | error e => cases mapped
  | ok a => exact ⟨a, rfl, by simpa [Except.map] using mapped⟩

theorem flatMap_of_decodeFrom {pos : Nat} {bs : List UInt8} {cs : List Char} (decoded : decodeFrom pos bs = .ok cs) :
    cs.flatMap String.utf8EncodeChar = bs := by
  fun_induction decodeFrom pos bs generalizing cs
  case case1 => cases decoded; rfl
  case case2 b rest w ih =>
    obtain ⟨cs', rest', rfl⟩ := map_eq_ok decoded
    rw [List.flatMap_cons, utf8EncodeChar_of_width_one w, ih rest']
    rfl
  case case4 b _ w c rest hc ih =>
    obtain ⟨cs', rest', rfl⟩ := map_eq_ok decoded
    rw [List.flatMap_cons, utf8EncodeChar_of_width_two w hc, ih rest']
    rfl
  case case11 b _ _ w c d rest hc hd ih =>
    obtain ⟨cs', rest', rfl⟩ := map_eq_ok decoded
    rw [List.flatMap_cons, utf8EncodeChar_of_width_three w (by simpa using hc) (by simpa using hd), ih rest']
    rfl
  case case21 b _ _ _ w c d e rest hc hd he ih =>
    obtain ⟨cs', rest', rfl⟩ := map_eq_ok decoded
    rw [List.flatMap_cons,
      utf8EncodeChar_of_width_four w (by simpa using hc) (by simpa using hd) (by simpa using he), ih rest']
    rfl
  -- every other branch of the reader is an error
  all_goals cases decoded

theorem encode_of_decode {bs : List UInt8} {s : String} (decoded : decode bs = .ok s) : encode s = bs := by
  obtain ⟨cs, chars, rfl⟩ := map_eq_ok decoded
  rw [encode_eq_flatMap, String.toList_ofList, flatMap_of_decodeFrom chars]

theorem decode_eq_ok_iff {bs : List UInt8} {s : String} : decode bs = .ok s ↔ encode s = bs :=
  ⟨encode_of_decode, fun encoded => encoded ▸ decode_encode s⟩

end Provenance.Text.Utf8
