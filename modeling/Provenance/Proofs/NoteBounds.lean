import Provenance.Proofs.NoteRoundTrip
/-!
Decoding notes stays inside its input. The decoder slices its input and adds
sizes read from it; in the source a slice past the end and a sum past the
machine word panic, where the lists of `decode` would quietly give fewer
bytes. `decodeChecked` is decoding with each of those steps checked, nothing
standing for a panic. The header words are below `2 ^ 32`, so no sum of
sizes passes `2 ^ 64`; the truncation check compares the input with the
padded sizes, which are at least the sizes, so the owner and the digest lie
within the input once it passed. Every check that fails is a malformed note:
the digest slice has the algorithm's length once the size check passed, so
making the gitoid never fails. A decoded note spans at least its twelve
header bytes and at most the input, so the section loop ends after at most a
twelfth of the input's length in rounds.
-/

namespace Provenance.Note

/-- `bytes[lo..hi]`: the bytes from `lo` up to `hi`, or nothing where that
range does not lie within the bytes and slicing panics. -/
def slice? (bs : List UInt8) (lo hi : Nat) : Option (List UInt8) :=
  if lo ≤ hi ∧ hi ≤ bs.length then some ((bs.drop lo).take (hi - lo)) else none

def word? (bs : List UInt8) (pos : Nat) : Option Nat :=
  (slice? bs pos (pos + 4)).map readLe32

/-- A sum of machine words, or nothing where it passes `2 ^ 64 - 1`. -/
def usizeAdd? (a b : Nat) : Option Nat :=
  if a + b < 2 ^ 64 then some (a + b) else none

/-- A size rounded up to a multiple of four, `(n + 3) & !3`, in machine words. -/
def padded? (n : Nat) : Option Nat :=
  (usizeAdd? n 3).map (· / 4 * 4)

/-- Decoding one note with every slice, word read and sum of sizes checked:
nothing where one of them panics. The checks and their order are those of
`decode`. -/
def decodeChecked (bs : List UInt8) : Option (Except StoreError (Note × Nat)) :=
  if bs.length < headerLen then some (.error (.malformedNote (.short bs.length)))
  else do
    let namesz ← word? bs 0
    let descsz ← word? bs 4
    let type ← word? bs 8
    match HashAlg.ofNoteType? type with
    | none => pure (.error (.malformedNote (.unknownType type)))
    | some alg =>
      if descsz ≠ alg.digestLen then pure (.error (.malformedNote (.descriptorSize alg descsz)))
      else do
        let descStart ← usizeAdd? headerLen (← padded? namesz)
        let stop ← usizeAdd? descStart (← padded? descsz)
        if bs.length < stop then pure (.error (.malformedNote .truncated))
        else do
          let name ← slice? bs headerLen (← usizeAdd? headerLen namesz)
          if name ≠ owner then pure (.error (.malformedNote .wrongOwner))
          else do
            let desc ← slice? bs descStart (← usizeAdd? descStart descsz)
            pure (match Gitoid.ofDigest alg desc with
              | .error e => .error (.value e)
              | .ok g => .ok (⟨g⟩, stop))

/-- The section loop, `while !bytes.is_empty()`, for at most `rounds` rounds:
each round decodes a note with its steps checked and slices off the bytes the
note used. Nothing where a step panics or the rounds run out. -/
def decodeSectionChecked (rounds : Nat) (bs : List UInt8) : Option (Except StoreError (List Note)) :=
  if bs = [] then some (.ok [])
  else
    match rounds with
    | 0 => none
    | rounds + 1 => do
      match ← decodeChecked bs with
      | .error e => pure (.error e)
      | .ok (n, used) =>
        let rest ← slice? bs used bs.length
        let notes ← decodeSectionChecked rounds rest
        pure (notes.map (n :: ·))

/-! The checked steps, where they cannot fail. -/

theorem slice?_of_le {bs : List UInt8} {lo hi : Nat} (ordered : lo ≤ hi) (inside : hi ≤ bs.length) :
    slice? bs lo hi = some ((bs.drop lo).take (hi - lo)) :=
  if_pos ⟨ordered, inside⟩

theorem readLe32_take (bs : List UInt8) : readLe32 (bs.take 4) = readLe32 bs := by
  match bs with
  | _ :: _ :: _ :: _ :: _ => rfl
  | [] | [_] | [_, _] | [_, _, _] => rfl

theorem word?_of_le {bs : List UInt8} {pos : Nat} (inside : pos + 4 ≤ bs.length) :
    word? bs pos = some (readLe32 (bs.drop pos)) := by
  rw [word?, slice?_of_le (by omega) inside, Nat.add_sub_cancel_left, Option.map_some, readLe32_take]

theorem readLe32_lt (bs : List UInt8) : readLe32 bs < 2 ^ 32 := by
  match bs with
  | a :: b :: c :: d :: _ =>
    have := a.toNat_lt
    have := b.toNat_lt
    have := c.toNat_lt
    have := d.toNat_lt
    simp only [readLe32]
    omega
  | [] | [_] | [_, _] | [_, _, _] => simp [readLe32]

theorem usizeAdd?_of_lt {a b : Nat} (small : a + b < 2 ^ 64) : usizeAdd? a b = some (a + b) :=
  if_pos small

theorem padded_le (n : Nat) : padded n ≤ n + 3 := by
  unfold padded
  omega

theorem padded?_of_lt {n : Nat} (small : n < 2 ^ 32) : padded? n = some (padded n) := by
  rw [padded?, usizeAdd?_of_lt (by omega), Option.map_some]
  rfl

-- The end of a note whose sizes are words fits in a machine word.
theorem sizes_fit {namesz descsz : Nat} (name : namesz < 2 ^ 32) (desc : descsz < 2 ^ 32) :
    headerLen + padded namesz + padded descsz < 2 ^ 64 := by
  have := padded_le namesz
  have := padded_le descsz
  unfold headerLen
  omega

/-! Decoding never panics. -/

-- Past the truncation check the owner and the digest lie within the input,
-- since each padded size is at least the size.
theorem decodeChecked_eq (bs : List UInt8) : decodeChecked bs = some (decode bs) := by
  unfold decodeChecked decode
  by_cases short : bs.length < headerLen
  · rw [if_pos short, if_pos short]
  rw [if_neg short, if_neg short]
  have long : 12 ≤ bs.length := by unfold headerLen at short; omega
  have nameWord := readLe32_lt bs
  have descWord := readLe32_lt (bs.drop 4)
  have fit := sizes_fit nameWord descWord
  have nameEnd := padded_ge (readLe32 bs)
  have descEnd := padded_ge (readLe32 (bs.drop 4))
  simp only [word?_of_le (show 0 + 4 ≤ bs.length by omega), word?_of_le (show 4 + 4 ≤ bs.length by omega),
    word?_of_le (show 8 + 4 ≤ bs.length by omega), List.drop_zero, Option.bind_eq_bind, Option.bind_some,
    padded?_of_lt nameWord, padded?_of_lt descWord, usizeAdd?_of_lt (show headerLen + padded (readLe32 bs) < 2 ^ 64 by omega),
    usizeAdd?_of_lt fit]
  cases found : HashAlg.ofNoteType? (readLe32 (bs.drop 8)) with
  | none => rfl
  | some alg =>
    dsimp only
    by_cases sized : readLe32 (bs.drop 4) ≠ alg.digestLen
    · rw [if_pos sized, if_pos sized]
      rfl
    rw [if_neg sized, if_neg sized]
    by_cases truncated : bs.length < headerLen + padded (readLe32 bs) + padded (readLe32 (bs.drop 4))
    · rw [if_pos truncated, if_pos truncated]
      rfl
    rw [if_neg truncated, if_neg truncated]
    have nameInside : headerLen + readLe32 bs ≤ bs.length := by omega
    have descInside : headerLen + padded (readLe32 bs) + readLe32 (bs.drop 4) ≤ bs.length := by omega
    simp only [usizeAdd?_of_lt (show headerLen + readLe32 bs < 2 ^ 64 by omega),
      usizeAdd?_of_lt (show headerLen + padded (readLe32 bs) + readLe32 (bs.drop 4) < 2 ^ 64 by omega),
      slice?_of_le (Nat.le_add_right _ _) nameInside, slice?_of_le (Nat.le_add_right _ _) descInside,
      Nat.add_sub_cancel_left, Option.bind_some]
    by_cases named : (bs.drop headerLen).take (readLe32 bs) ≠ owner
    · rw [if_pos named, if_pos named]
      rfl
    rw [if_neg named, if_neg named]
    cases Gitoid.ofDigest alg ((bs.drop (headerLen + padded (readLe32 bs))).take (readLe32 (bs.drop 4))) <;> rfl

/-! What decoding gives. -/

-- The only step that could fail otherwise than as a malformed note is making
-- the gitoid, and the digest slice has the algorithm's length by then.
theorem decode_error {bs : List UInt8} {e : StoreError} (failed : decode bs = .error e) :
    ∃ m, e = .malformedNote m := by
  unfold decode at failed
  split at failed
  · cases failed
    exact ⟨_, rfl⟩
  · dsimp only at failed
    split at failed
    · cases failed
      exact ⟨_, rfl⟩
    · rename_i alg found
      split at failed
      · cases failed
        exact ⟨_, rfl⟩
      · rename_i sized
        split at failed
        · cases failed
          exact ⟨_, rfl⟩
        · rename_i long
          split at failed
          · cases failed
            exact ⟨_, rfl⟩
          · split at failed
            · rename_i e' made
              simp only [ne_eq, Decidable.not_not] at sized
              have descEnd := padded_ge (readLe32 (bs.drop 4))
              have whole : ((bs.drop (headerLen + padded (readLe32 bs))).take (readLe32 (bs.drop 4))).length =
                  alg.digestLen := by
                simp only [List.length_take, List.length_drop]
                omega
              rw [Gitoid.ofDigest, dif_pos (sized ▸ whole)] at made
              cases made
            · cases failed

theorem decode_used {bs : List UInt8} {n : Note} {used : Nat} (decoded : decode bs = .ok (n, used)) :
    headerLen ≤ used ∧ used ≤ bs.length := by
  obtain ⟨alg, -, -, long, -, -, rfl⟩ := decode_eq_ok decoded
  exact ⟨by omega, long⟩

theorem decode_outcome (bs : List UInt8) :
    (∃ n used, decode bs = .ok (n, used) ∧ headerLen ≤ used ∧ used ≤ bs.length) ∨
      ∃ m, decode bs = .error (.malformedNote m) := by
  cases decoded : decode bs with
  | ok result =>
    obtain ⟨n, used⟩ := result
    exact .inl ⟨n, used, rfl, decode_used decoded⟩
  | error e =>
    obtain ⟨m, rfl⟩ := decode_error decoded
    exact .inr ⟨m, rfl⟩

/-! The section loop. -/

-- Each round takes at least twelve bytes, so a twelfth of the length in
-- rounds, and one more for the last note, is enough; and the rest is sliced
-- within the input.
theorem decodeSectionChecked_eq {rounds : Nat} {bs : List UInt8} (enough : bs.length / headerLen < rounds) :
    decodeSectionChecked rounds bs = some (decodeSection bs) := by
  induction rounds generalizing bs with
  | zero => exact absurd enough (Nat.not_lt_zero _)
  | succ rounds ih =>
    unfold decodeSectionChecked
    by_cases empty : bs = []
    · rw [if_pos empty, empty, decodeSection_nil]
    rw [if_neg empty]
    simp only [decodeChecked_eq, Option.bind_eq_bind, Option.bind_some]
    cases decoded : decode bs with
    | error e =>
      rw [decodeSection_of_error empty decoded]
      rfl
    | ok result =>
      obtain ⟨n, used⟩ := result
      obtain ⟨taken, inside⟩ := decode_used decoded
      have remaining : (bs.drop used).length / headerLen < rounds := by
        rw [List.length_drop]
        unfold headerLen at taken enough ⊢
        omega
      have rest : (bs.drop used).take (bs.length - used) = bs.drop used :=
        List.take_of_length_le (Nat.le_of_eq List.length_drop)
      simp only [slice?_of_le inside (Nat.le_refl _), rest, Option.bind_some, ih remaining]
      rw [decodeSection_of_decode empty decoded]
      rfl

-- Decoding a note never panics: with every slice, word read and sum of sizes
-- checked it gives what `decode` gives. It either decodes a note spanning at
-- least its header and at most the input, or reports a malformed note; and
-- the section loop, with every step checked, ends within a twelfth of the
-- input's length in rounds with what `decodeSection` gives.
theorem note_decoding_stays_in_bounds :
    (∀ bs : List UInt8, decodeChecked bs = some (decode bs)) ∧
    (∀ namesz descsz : Nat, namesz < 2 ^ 32 → descsz < 2 ^ 32 →
      headerLen + padded namesz + padded descsz < 2 ^ 64) ∧
    (∀ bs : List UInt8,
      (∃ n used, decode bs = .ok (n, used) ∧ headerLen ≤ used ∧ used ≤ bs.length) ∨
        ∃ m, decode bs = .error (.malformedNote m)) ∧
    (∀ (rounds : Nat) (bs : List UInt8), bs.length / headerLen < rounds →
      decodeSectionChecked rounds bs = some (decodeSection bs)) :=
  ⟨decodeChecked_eq, fun _ _ name desc => sizes_fit name desc, decode_outcome,
    fun _ _ enough => decodeSectionChecked_eq enough⟩

-- Three bytes are less than a header: one round reads them and refuses them.
theorem short_section_ends_in_one_round : decodeSectionChecked 1 [1, 2, 3] = some (decodeSection [1, 2, 3]) :=
  note_decoding_stays_in_bounds.2.2.2 1 [1, 2, 3] (by decide)

end Provenance.Note
