import Provenance.Proofs.GitoidText
import Provenance.Proofs.GitoidOrder
import Provenance.Proofs.DocumentParse
import Mathlib.Data.List.Chain
/-!
Gitoids sort as their hex text. Digests compare byte by byte and text
character by character; a byte is written as two digits, its high half first,
and the digits `0`–`9`, `a`–`f` ascend in ASCII, so each byte's digits compare
as the byte does and all of them have the same length. Within an algorithm
gitoids therefore compare as their hex texts, as strings and as bytes, while
every SHA-1 gitoid sorts below every SHA-256 one. A document's entries
ascend, so its `blob` lines do; and on lines without uppercase letters the
check that reading a document makes on the entries it read holds exactly when
the lines themselves ascend.
-/

namespace Provenance.Text

theorem ordering_ext {o₁ o₂ : Ordering} (lt : o₁ = .lt ↔ o₂ = .lt) (eq : o₁ = .eq ↔ o₂ = .eq) : o₁ = o₂ := by
  cases o₁ <;> cases o₂ <;> simp_all

/-! Lexicographic order over blocks of one length. -/

theorem compare_append_of_length_eq {α : Type} [Ord α] {l₁ l₂ r₁ r₂ : List α} (same : l₁.length = l₂.length) :
    compare (l₁ ++ r₁) (l₂ ++ r₂) = (compare l₁ l₂).then (compare r₁ r₂) := by
  induction l₁ generalizing l₂ with
  | nil =>
    rw [List.length_nil, eq_comm, List.length_eq_zero_iff] at same
    subst same
    rfl
  | cons x xs ih =>
    cases l₂ with
    | nil => simp at same
    | cons y ys =>
      rw [List.cons_append, List.cons_append, List.compare_cons_cons, List.compare_cons_cons,
        ih (by simpa using same), Ordering.then_assoc]

-- An encoding that writes each element as a block of one length, blocks
-- comparing as their elements, compares as the list it encodes.
theorem compare_flatMap {α β : Type} [Ord α] [Ord β] {f : α → List β} {k : Nat}
    (len : ∀ a, (f a).length = k + 1) (mono : ∀ a b, compare (f a) (f b) = compare a b) (xs ys : List α) :
    compare (xs.flatMap f) (ys.flatMap f) = compare xs ys := by
  induction xs generalizing ys with
  | nil =>
    cases ys with
    | nil => rfl
    | cons y ys =>
      obtain ⟨c, cs, block⟩ := List.exists_cons_of_length_eq_add_one (len y)
      rw [List.flatMap_cons, block, List.flatMap_nil, List.cons_append, List.compare_nil_cons,
        List.compare_nil_cons]
  | cons x xs ih =>
    cases ys with
    | nil =>
      obtain ⟨c, cs, block⟩ := List.exists_cons_of_length_eq_add_one (len x)
      rw [List.flatMap_cons, block, List.flatMap_nil, List.cons_append, List.compare_cons_nil,
        List.compare_cons_nil]
    | cons y ys =>
      rw [List.flatMap_cons, List.flatMap_cons, compare_append_of_length_eq (by rw [len, len]), mono, ih,
        List.compare_cons_cons]

/-! The string order is the order of the characters. -/

theorem compare_chars_eq_lt {xs ys : List Char} : compare xs ys = .lt ↔ xs < ys := by
  induction xs generalizing ys with
  | nil =>
    cases ys with
    | nil => exact iff_of_false (by simp) (List.lt_irrefl [])
    | cons y ys => exact iff_of_true rfl (List.nil_lt_cons y ys)
  | cons x xs ih =>
    cases ys with
    | nil => exact iff_of_false (by simp) (List.not_lt_nil _)
    | cons y ys =>
      have lt : compare x y = .lt ↔ x < y := compareOfLessAndEq_eq_lt
      rw [List.compare_cons_cons, Ordering.then_eq_lt, List.cons_lt_cons_iff, ih, lt, Std.compare_eq_iff_eq]

theorem compare_string (s t : String) : compare s t = compare s.toList t.toList := by
  apply ordering_ext
  · rw [compare_chars_eq_lt]
    exact compareOfLessAndEq_eq_lt
  · rw [Std.compare_eq_iff_eq, Std.compare_eq_iff_eq, String.toList_inj]

theorem compare_string_eq_gt {s t : String} : compare s t = .gt ↔ t < s := by
  rw [compare_string, @Std.OrientedCmp.eq_swap _ compare _ s.toList t.toList, Ordering.swap_eq_gt,
    compare_chars_eq_lt]
  rfl

theorem le_iff_compare_ne_gt {s t : String} : s ≤ t ↔ compare s t ≠ .gt := by
  rw [ne_eq, compare_string_eq_gt]
  rfl

namespace Hex

/-! Digits ascend with their values, and so do a byte's two digits. -/

-- Bytes compare as the pair of their high and low halves.
theorem compare_halves (a b : UInt8) :
    (compare (a.toNat / 16) (b.toNat / 16)).then (compare (a.toNat % 16) (b.toNat % 16)) = compare a b := by
  apply ordering_ext
  · rw [Ordering.then_eq_lt, Nat.compare_eq_lt, Nat.compare_eq_eq, Nat.compare_eq_lt, Std.compare_eq_lt,
      UInt8.lt_iff_toNat_lt]
    omega
  · rw [Ordering.then_eq_eq, Nat.compare_eq_eq, Nat.compare_eq_eq, Std.compare_eq_iff_eq, ← UInt8.toNat_inj]
    omega

-- A byte written as its two halves, each by a digit that ascends with its
-- value, compares as the byte: as characters and as their ASCII bytes alike.
theorem compare_digits {β : Type} [Ord β] (digit : Nat → β)
    (ascends : ∀ m < 16, ∀ n < 16, compare (digit m) (digit n) = compare m n) (a b : UInt8) :
    compare [digit (a.toNat / 16), digit (a.toNat % 16)] [digit (b.toNat / 16), digit (b.toNat % 16)] =
      compare a b := by
  obtain ⟨highA, lowA⟩ := halves_lt a
  obtain ⟨highB, lowB⟩ := halves_lt b
  rw [List.compare_cons_cons, List.compare_cons_cons, List.compare_nil_nil, Ordering.then_eq,
    ascends _ highA _ highB, ascends _ lowA _ lowB, compare_halves]

theorem compare_pair (a b : UInt8) : compare (pair a) (pair b) = compare a b :=
  compare_digits digitChar (by decide) a b

theorem compare_pairBytes (a b : UInt8) : compare (pairBytes a) (pairBytes b) = compare a b :=
  compare_digits digitByte (by decide) a b

theorem compare_encodeChars (xs ys : List UInt8) : compare (encodeChars xs) (encodeChars ys) = compare xs ys :=
  compare_flatMap (k := 1) (fun _ => rfl) compare_pair xs ys

theorem compare_encode (xs ys : List UInt8) : compare (encode xs) (encode ys) = compare xs ys := by
  rw [compare_string, encode, encode, String.toList_ofList, String.toList_ofList, compare_encodeChars]

theorem compare_utf8_encode (xs ys : List UInt8) :
    compare (Utf8.encode (encode xs)) (Utf8.encode (encode ys)) = compare xs ys := by
  rw [Utf8.encode_eq_flatMap, Utf8.encode_eq_flatMap, encode, encode, String.toList_ofList,
    String.toList_ofList, encodeChars_bytes, encodeChars_bytes]
  exact compare_flatMap (k := 1) (fun _ => rfl) compare_pairBytes xs ys

end Hex

end Provenance.Text

namespace Provenance.Gitoid

open Text

theorem cmp_of_alg_eq {g h : Gitoid} (same : g.alg = h.alg) : cmp g h = compare g.digest h.digest := by
  rw [cmp_eq_compareLex, compareLex, compareOn, compareOn, same, Std.compare_self]
  rfl

theorem cmp_eq_compare_toHex {g h : Gitoid} (same : g.alg = h.alg) : cmp g h = compare g.toHex h.toHex := by
  rw [cmp_of_alg_eq same, toHex, toHex, Hex.compare_encode]

theorem cmp_eq_compare_hexBytes {g h : Gitoid} (same : g.alg = h.alg) :
    cmp g h = compare (Utf8.encode g.toHex) (Utf8.encode h.toHex) := by
  rw [cmp_of_alg_eq same, toHex, toHex, Hex.compare_utf8_encode]

theorem cmp_sha1_sha256 {g h : Gitoid} (first : g.alg = .sha1) (second : h.alg = .sha256) : cmp g h = .lt := by
  unfold cmp
  rw [first, second]
  rfl

end Provenance.Gitoid

namespace Provenance.Document

open Text

/-! Entry lines: `blob `, the hex text, and in the document a line feed. -/

theorem compare_lineChars {g h : Gitoid} (same : g.alg = h.alg) : compare (lineChars g) (lineChars h) = g.cmp h := by
  rw [lineChars, lineChars, compare_append_of_length_eq rfl, Std.compare_self, Hex.compare_encodeChars,
    Gitoid.cmp_of_alg_eq same]
  rfl

theorem compare_entryLine {g h : Gitoid} (same : g.alg = h.alg) : compare (entryLine g) (entryLine h) = g.cmp h := by
  have line : ∀ g : Gitoid, (entryLine g).toList = lineChars g ++ ['\n'] := by
    intro g
    simp [entryLine, lineChars, Gitoid.toHex, Hex.encode]
  have len : (lineChars g).length = (lineChars h).length := by
    simp [lineChars, Hex.length_encodeChars, g.length_digest, h.length_digest, same]
  rw [compare_string, line, line, compare_append_of_length_eq len, compare_lineChars same, Std.compare_self,
    Ordering.then_eq]

theorem entryLines_ascending {a : HashAlg} {gs : List Gitoid} {d : Document} (built : ofGitoids a gs = .ok d) :
    (d.entries.map entryLine).Pairwise (· ≤ ·) := by
  obtain ⟨uniform, sorted⟩ := ofGitoids_self_iff.mp (ofGitoids_self_of_eq_ok built)
  rw [List.pairwise_map]
  refine sorted.imp_of_mem fun {g h} gMem hMem below => ?_
  rw [le_iff_compare_ne_gt, compare_entryLine (by rw [uniform g gMem, uniform h hMem])]
  simpa [Gitoid.le] using below

/-! The sortedness check of reading. -/

-- Lowercasing changes exactly the characters from `A` to `Z`, the range
-- `isUpper` tests.
theorem toLower_of_not_isUpper {c : Char} (lower : c.isUpper = false) : c.toLower = c :=
  dif_neg (of_decide_eq_false lower)

-- Lines without uppercase letters that read as entries are the lines of those
-- entries: reading gives back a hex text in lowercase, here the text itself.
theorem lines_of_readEntries {a : HashAlg} {n : Nat} {lines : List (List Char)} {gs : List Gitoid}
    (lower : ∀ l ∈ lines, ∀ c ∈ l, c.isUpper = false) (read : readEntries a n lines = .ok gs) :
    lines = gs.map lineChars ∧ ∀ g ∈ gs, g.alg = a := by
  induction lines generalizing n gs with
  | nil =>
    cases read
    exact ⟨rfl, fun _ mem => absurd mem List.not_mem_nil⟩
  | cons l rest ih =>
    rw [readEntries] at read
    split at read
    · rename_i blob
      split at read
      · cases read
      · rename_i g readHex
        obtain ⟨tail, restRead, rfl⟩ := Utf8.map_eq_ok read
        obtain ⟨restLines, restAlg⟩ := ih (fun l mem => lower l (List.mem_cons_of_mem _ mem)) restRead
        obtain ⟨alg, hex⟩ := Gitoid.toHex_of_ofHex readHex
        obtain ⟨t, rfl⟩ := List.isPrefixOf_iff_prefix.mp blob
        have lowerHex : ∀ c ∈ t, c.isUpper = false :=
          fun c mem => lower _ List.mem_cons_self c (List.mem_append_right _ mem)
        have digits : t = Hex.encodeChars g.digest := by
          have chars := congrArg String.toList hex
          rw [toList_toLower, ← String.length_toList, List.drop_left, String.toList_ofList,
            List.map_congr_left (fun c mem => toLower_of_not_isUpper (lowerHex c mem)), List.map_id'] at chars
          rw [← chars]
          simp [Gitoid.toHex, Hex.encode]
        refine ⟨by rw [restLines, digits]; rfl, ?_⟩
        intro g' mem
        rcases List.mem_cons.mp mem with rfl | mem
        · exact alg
        · exact restAlg g' mem
    · cases read

theorem ascending_iff_isChain (gs : List Gitoid) : ascending gs = true ↔ gs.IsChain (fun g h => Gitoid.le g h = true) := by
  fun_induction ascending gs with
  | case1 g h rest ih => rw [Bool.and_eq_true, ih, List.isChain_cons_cons]
  | case2 gs notPair =>
    match gs, notPair with
    | [], _ => exact iff_of_true rfl .nil
    | [g], _ => exact iff_of_true rfl (.singleton g)
    | g :: h :: rest, notPair => exact absurd rfl (notPair g h rest)

-- On lines of one algorithm without uppercase letters, the entries read are
-- ascending exactly when the lines are, as strings.
theorem ascending_iff_lines_ascend {a : HashAlg} {n : Nat} {lines : List (List Char)} {gs : List Gitoid}
    (lower : ∀ l ∈ lines, ∀ c ∈ l, c.isUpper = false) (read : readEntries a n lines = .ok gs) :
    ascending gs = true ↔ (lines.map String.ofList).IsChain (· ≤ ·) := by
  obtain ⟨rfl, uniform⟩ := lines_of_readEntries lower read
  rw [ascending_iff_isChain, List.map_map, List.isChain_map, List.IsChain.iff_mem,
    @List.IsChain.iff_mem _ (fun g h => _ ≤ _)]
  apply List.IsChain.iff
  intro g h
  refine and_congr_right fun gMem => and_congr_right fun hMem => ?_
  rw [Function.comp_apply, Function.comp_apply, le_iff_compare_ne_gt, compare_string, String.toList_ofList,
    String.toList_ofList, compare_lineChars (by rw [uniform g gMem, uniform h hMem])]
  simp [Gitoid.le]

end Provenance.Document

namespace Provenance

open Text

-- Gitoids of one algorithm compare as their hex texts, as strings and byte by
-- byte; SHA-1 gitoids come first. So a document's entry lines ascend, and on
-- lines without uppercase letters the sortedness check of reading is the
-- string order of the lines.
theorem gitoid_order_is_hex_order :
    (∀ g h : Gitoid, g.alg = h.alg →
      g.cmp h = compare g.toHex h.toHex ∧ g.cmp h = compare (Utf8.encode g.toHex) (Utf8.encode h.toHex)) ∧
    (∀ g h : Gitoid, g.alg = .sha1 → h.alg = .sha256 → g.cmp h = .lt) ∧
    (∀ (a : HashAlg) (gs : List Gitoid) (d : Document), Document.ofGitoids a gs = .ok d →
      (d.entries.map Document.entryLine).Pairwise (· ≤ ·)) ∧
    (∀ (a : HashAlg) (n : Nat) (lines : List (List Char)) (gs : List Gitoid),
      (∀ l ∈ lines, ∀ c ∈ l, c.isUpper = false) → Document.readEntries a n lines = .ok gs →
      (Document.ascending gs = true ↔ (lines.map String.ofList).IsChain (· ≤ ·))) :=
  ⟨fun _ _ same => ⟨Gitoid.cmp_eq_compare_toHex same, Gitoid.cmp_eq_compare_hexBytes same⟩,
    fun _ _ first second => Gitoid.cmp_sha1_sha256 first second,
    fun _ _ _ built => Document.entryLines_ascending built,
    fun _ _ _ _ lower read => Document.ascending_iff_lines_ascend lower read⟩

end Provenance
