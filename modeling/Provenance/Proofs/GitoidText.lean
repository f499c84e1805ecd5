import Provenance.Proofs.StoreWalk
import Provenance.Proofs.Utf8RoundTrip
import Provenance.Proofs.NoteRoundTrip
import Mathlib.Data.List.TakeDrop
import Mathlib.Data.List.TakeWhile
/-!
The text forms of a gitoid: the hex digest, the URI, the shard split and the
short form. Writing gives two lowercase digits per byte, so the hex text
splits where the bytes do: the shard is the first byte's two digits and the
short form the first four bytes' eight, and every form reads back as the
gitoid it came from. Reading takes either case. A text it accepts is ASCII,
since each of its bytes is a digit, so the gitoid read is written back as
that text in lowercase; a URI it accepts is the prefix, a name of the
algorithm up to the first colon, the colon and such a text.
-/

namespace Provenance.Text

theorem toList_toLower (s : String) : s.toLower.toList = s.toList.map Char.toLower :=
  String.toList_map

namespace Hex

def isLowerDigit (c : Char) : Bool := c.isDigit || ('a' ≤ c && c ≤ 'f')

def lowerChar (b : UInt8) : Char := (Char.ofNat b.toNat).toLower

theorem encodeChars_cons (b : UInt8) (bs : List UInt8) : encodeChars (b :: bs) = pair b ++ encodeChars bs :=
  List.flatMap_cons

theorem encodeChars_append (xs ys : List UInt8) : encodeChars (xs ++ ys) = encodeChars xs ++ encodeChars ys :=
  List.flatMap_append

theorem length_encodeChars (bs : List UInt8) : (encodeChars bs).length = 2 * bs.length := by
  induction bs with
  | nil => rfl
  | cons b rest ih =>
    rw [encodeChars_cons, List.length_append, ih, List.length_cons]
    simp only [pair, List.length_cons, List.length_nil]
    omega

-- Two digits a byte: the first `2 * n` digits are those of the first `n` bytes.
theorem take_encodeChars (n : Nat) (bs : List UInt8) :
    (encodeChars bs).take (2 * n) = encodeChars (bs.take n) := by
  induction bs generalizing n with
  | nil => simp [encodeChars]
  | cons b rest ih =>
    cases n with
    | zero => simp [encodeChars]
    | succ n =>
      rw [show 2 * (n + 1) = 2 * n + 1 + 1 by omega, encodeChars_cons, List.take_succ_cons, encodeChars_cons]
      simp only [pair, List.cons_append, List.nil_append, List.take_succ_cons, ih]

/-! Reading: each accepted byte is a digit of either case, and lowercasing it
gives the digit writing produces for its value. -/

-- A run of `count` consecutive codes from `first` that lowercase to the
-- digits from `value` on: a byte in the run lowercases to its digit.
theorem lowerChar_of_run {b : UInt8} {first value count v : Nat}
    (run : ∀ k < count, (Char.ofNat (first + k)).toLower = digitChar (value + k))
    (inRun : first ≤ b.toNat ∧ b.toNat < first + count) (digit : v + first = b.toNat + value) :
    lowerChar b = digitChar v := by
  have same := run (b.toNat - first) (by omega)
  rwa [show first + (b.toNat - first) = b.toNat by omega, show value + (b.toNat - first) = v by omega] at same

theorem lowerChar_of_digitValue {b : UInt8} {v : Nat} (digit : digitValue b = some v) :
    b.toNat < 128 ∧ v < 16 ∧ lowerChar b = digitChar v := by
  have decimal : ∀ k < 10, (Char.ofNat (48 + k)).toLower = digitChar (0 + k) := by decide
  have lower : ∀ k < 6, (Char.ofNat (97 + k)).toLower = digitChar (10 + k) := by decide
  have upper : ∀ k < 6, (Char.ofNat (65 + k)).toLower = digitChar (10 + k) := by decide
  unfold digitValue at digit
  split_ifs at digit with inDecimal inLower inUpper
  · cases digit
    exact ⟨by omega, by omega, lowerChar_of_run decimal (by omega) (by omega)⟩
  · cases digit
    exact ⟨by omega, by omega, lowerChar_of_run lower (by omega) (by omega)⟩
  · cases digit
    exact ⟨by omega, by omega, lowerChar_of_run upper (by omega) (by omega)⟩

theorem pair_ofNat {h l : Nat} (high : h < 16) (low : l < 16) :
    pair (UInt8.ofNat (16 * h + l)) = [digitChar h, digitChar l] := by
  have value : (UInt8.ofNat (16 * h + l)).toNat = 16 * h + l :=
    UInt8.toNat_ofNat_of_lt' (show 16 * h + l < 256 by omega)
  simp only [pair, value]
  rw [show (16 * h + l) / 16 = h by omega, show (16 * h + l) % 16 = l by omega]

-- Pairs of digits read back: the bytes read are ASCII, and lowercasing them
-- gives the digits of the value read.
theorem decodePairs_eq_ok {pos : Nat} {l bs : List UInt8} (decoded : decodePairs pos l = .ok bs)
    (even : l.length % 2 = 0) : (∀ b ∈ l, b.toNat < 128) ∧ l.map lowerChar = encodeChars bs := by
  fun_induction decodePairs pos l generalizing bs with
  | case1 pos hi lo rest h v lowDigit highDigit ih =>
    obtain ⟨tail, restDecoded, rfl⟩ := Utf8.map_eq_ok decoded
    obtain ⟨hiAscii, hiSmall, hiChar⟩ := lowerChar_of_digitValue highDigit
    obtain ⟨loAscii, loSmall, loChar⟩ := lowerChar_of_digitValue lowDigit
    obtain ⟨restAscii, restChars⟩ := ih restDecoded (by simp at even; omega)
    refine ⟨?_, ?_⟩
    · intro b mem
      rcases List.mem_cons.mp mem with rfl | mem
      · exact hiAscii
      rcases List.mem_cons.mp mem with rfl | mem
      · exact loAscii
      exact restAscii b mem
    · rw [encodeChars_cons, pair_ofNat hiSmall loSmall, List.map_cons, List.map_cons, hiChar, loChar, restChars]
      rfl
  | case2 => cases decoded
  | case3 => cases decoded
  | case4 l pos notPair =>
    cases decoded
    match l, notPair with
    | [], _ => exact ⟨fun _ mem => absurd mem List.not_mem_nil, rfl⟩
    | [_], _ => simp at even
    | hi :: lo :: rest, notPair => exact absurd rfl (notPair hi lo rest)

theorem decodeFrom_ascii {l : List UInt8} (ascii : ∀ b ∈ l, b.toNat < 128) (pos : Nat) :
    Utf8.decodeFrom pos l = .ok (l.map fun b => Char.ofNat b.toNat) := by
  induction l generalizing pos with
  | nil => rw [Utf8.decodeFrom, List.map_nil]
  | cons b rest ih =>
    rw [Utf8.decodeFrom_one (Utf8.width_eq_one (ascii b List.mem_cons_self)),
      ih (fun b' mem => ascii b' (List.mem_cons_of_mem _ mem))]
    rfl

-- A text the reader accepts is ASCII, so it is its bytes read as characters,
-- and in lowercase it is what writing the bytes read gives.
theorem encode_of_decode {s : String} {bs : List UInt8} (decoded : decode s = .ok bs) : encode bs = s.toLower := by
  unfold decode decodeBytes at decoded
  split at decoded
  · cases decoded
  · rename_i even
    obtain ⟨ascii, lowered⟩ := decodePairs_eq_ok decoded (by omega)
    have chars : s.toList = (Utf8.encode s).map fun b => Char.ofNat b.toNat := by
      have readBack := Utf8.decodeFrom_flatMap 0 s.toList
      rw [← Utf8.encode_eq_flatMap, Utf8.encode, decodeFrom_ascii ascii] at readBack
      exact (Except.ok.inj readBack).symm
    apply String.toList_inj.mp
    rw [encode, String.toList_ofList, toList_toLower, chars, List.map_map, ← lowered]
    rfl

end Hex

end Provenance.Text

namespace Provenance.Gitoid

open Text

theorem ofDigest_of_length {a : HashAlg} {b : List UInt8} (len : b.length = a.digestLen) :
    ofDigest a b = .ok ⟨a, b, len⟩ :=
  dif_pos len

theorem toHex_of_ofHex {a : HashAlg} {s : String} {g : Gitoid} (read : ofHex a s = .ok g) :
    g.alg = a ∧ g.toHex = s.toLower := by
  unfold ofHex at read
  split at read
  · cases read
  · rename_i bs decoded
    obtain ⟨alg, digest⟩ := Note.ofDigest_eq_ok read
    exact ⟨alg, by rw [toHex, digest, Hex.encode_of_decode decoded]⟩

theorem parseHex_toHex (g : Gitoid) : parseHex g.toHex = .ok g := by
  unfold parseHex
  rw [Store.utf8ByteSize_toHex]
  cases h : g.alg with
  | sha1 => rw [if_pos rfl, ← h, ofHex_toHex]
  | sha256 => rw [if_neg (by decide), if_pos rfl, ← h, ofHex_toHex]

/-! URIs. -/

theorem name_plain (a : HashAlg) : ∀ c ∈ a.name.toList, c ≠ ':' := by
  have plain : (a.name.toList.all fun c => c != ':') = true := by cases a <;> decide
  simpa using plain

theorem parse_name (a : HashAlg) : HashAlg.parse a.name = .ok a := by
  cases a <;> rfl

theorem span_colon {n t : List Char} (plain : ∀ c ∈ n, c ≠ ':') : (n ++ ':' :: t).span (· ≠ ':') = (n, ':' :: t) := by
  rw [List.span_eq_takeWhile_dropWhile, List.takeWhile_append_of_pos (by simpa using plain),
    List.dropWhile_append_of_pos (by simpa using plain)]
  simp

theorem toList_toUri (g : Gitoid) :
    g.toUri.toList = uriPrefix.toList ++ (g.alg.name.toList ++ ':' :: g.toHex.toList) := by
  simp [toUri]

theorem ofUri_toUri (g : Gitoid) : ofUri g.toUri = .ok g := by
  unfold ofUri
  rw [toList_toUri, if_pos (List.isPrefixOf_iff_prefix.mpr (List.prefix_append _ _)), List.drop_left,
    span_colon (name_plain g.alg)]
  simp only [String.ofList_toList, parse_name]
  exact ofHex_toHex g

-- A URI that reads is the prefix, a name up to the first colon, the colon and
-- a hex text: the name reads as the algorithm and the text as the digest.
theorem eq_of_ofUri {u : String} {g : Gitoid} (read : ofUri u = .ok g) :
    ∃ n h : String, u = uriPrefix ++ n ++ ":" ++ h ∧ ':' ∉ n.toList ∧
      HashAlg.parse n = .ok g.alg ∧ h.toLower = g.toHex := by
  unfold ofUri at read
  dsimp only at read
  split at read
  · rename_i pre
    split at read
    · rename_i name hex spanned
      cases parsed : HashAlg.parse (String.ofList name) with
      | error e =>
        rw [parsed] at read
        cases read
      | ok alg =>
        rw [parsed] at read
        obtain ⟨algEq, lowered⟩ := toHex_of_ofHex read
        obtain ⟨rest, whole⟩ := List.isPrefixOf_iff_prefix.mp pre
        rw [← whole, List.drop_left, List.span_eq_takeWhile_dropWhile, Prod.mk.injEq] at spanned
        have pieces : rest = name ++ ':' :: hex := by
          rw [← spanned.1, ← spanned.2, List.takeWhile_append_dropWhile]
        have plain : ':' ∉ name := by
          intro mem
          rw [← spanned.1] at mem
          simpa using List.mem_takeWhile_imp mem
        refine ⟨String.ofList name, String.ofList hex, ?_, by simpa using plain, by rw [algEq]; exact parsed,
          lowered.symm⟩
        apply String.toList_inj.mp
        simp [← whole, pieces]
    · cases read
  · cases read

-- The text forms of a gitoid and how they read. A digest of the algorithm's
-- length makes a gitoid; its hex text is two lowercase digits a byte and
-- reads back under its algorithm, under the algorithm its length names, and
-- inside its URI; the shard and the rest make up the hex text, and the short
-- form is its first eight digits. Reading a hex text or a URI gives back the
-- text in lowercase and the algorithm named.
theorem gitoid_text_forms_round_trip :
    (∀ (a : HashAlg) (b : List UInt8), b.length = a.digestLen →
      ∃ g, ofDigest a b = .ok g ∧ g.alg = a ∧ g.digest = b) ∧
    (∀ g : Gitoid,
      g.toHex.toList.length = 2 * g.digest.length ∧ (∀ c ∈ g.toHex.toList, Hex.isLowerDigit c = true) ∧
      ofHex g.alg g.toHex = .ok g ∧ parseHex g.toHex = .ok g ∧ ofUri g.toUri = .ok g ∧
      g.shardPrefix ++ g.shardSuffix = g.toHex ∧ g.shardPrefix.toList.length = 2 ∧
      g.shortHex = String.ofList (g.toHex.toList.take 8) ∧ g.shortHex.toList.length = 8) ∧
    (∀ (a : HashAlg) (s : String) (g : Gitoid), ofHex a s = .ok g → g.alg = a ∧ g.toHex = s.toLower) ∧
    (∀ (u : String) (g : Gitoid), ofUri u = .ok g →
      ∃ n h : String, u = uriPrefix ++ n ++ ":" ++ h ∧ ':' ∉ n.toList ∧
        HashAlg.parse n = .ok g.alg ∧ h.toLower = g.toHex) := by
  refine ⟨fun a b len => ⟨_, ofDigest_of_length len, rfl, rfl⟩, fun g => ?_,
    fun _ _ _ read => toHex_of_ofHex read, fun _ _ read => eq_of_ofUri read⟩
  have long : 4 ≤ g.digest.length := by rw [g.length_digest]; cases g.alg <;> decide
  have hexChars : g.toHex.toList = Hex.encodeChars g.digest := by simp [toHex, Hex.encode]
  have shortChars : g.shortHex.toList = Hex.encodeChars (g.digest.take 4) := by simp [shortHex, Hex.encode]
  refine ⟨by rw [hexChars, Hex.length_encodeChars], fun c mem => Store.isHexDigit_of_mem_encode mem,
    ofHex_toHex g, parseHex_toHex g, ofUri_toUri g, ?_, ?_, ?_, ?_⟩
  · rw [shardPrefix, shardSuffix, toHex, Hex.encode, Hex.encode, Hex.encode, ← String.ofList_append,
      ← Hex.encodeChars_append, List.take_append_drop]
  · simp [shardPrefix, Hex.encode, Hex.length_encodeChars]
    omega
  · rw [hexChars, show 8 = 2 * 4 from rfl, Hex.take_encodeChars, shortHex, Hex.encode]
  · rw [shortChars, Hex.length_encodeChars, List.length_take]
    omega

end Provenance.Gitoid
