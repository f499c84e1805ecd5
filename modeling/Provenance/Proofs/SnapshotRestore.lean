import Provenance.Proofs.SnapshotRoundTrip
/-!
What a restore accepts, and what it leaves behind when it refuses. After the
count word a snapshot is a run of records, and a restore reads them in order
until the first that fails one of its checks, made in a fixed order: the
length word must be there, claim at most a mebibyte, and be followed by that
many bytes, which must be UTF-8; a record the restore adds must not be empty.
Main statement: a restore succeeds exactly on a count word followed by that
many sound records, whatever comes after them, and otherwise fails with the
fault of the first bad record, having added the records before it and
changed nothing else.

Every byte string starts either with a sound record or with a fault, so one
step of the restore is one of two things, and a whole restore is a run of
sound records ending in the count or in a fault.
-/

namespace Provenance.Snapshot

open Text

def adds : Option String → String → Bool
  | some skip, path => path != skip
  | none, _ => false

/-- A ledger with the records a restore adds from `ds`, rewritten by its vpath rules. -/
def replay (l : Ledger) (own : Option String) (ds : List String) : Ledger :=
  { l with deps := l.deps ++ (ds.filter (adds own)).map l.vpath.apply }

structure Sound (own : Option String) (ds : List String) : Prop where
  fits : Fits ds
  nonempty : ∀ d ∈ ds, adds own d → d ≠ ""

/-- How the record at the front of some bytes fails, in the order of the checks. -/
inductive Fault (own : Option String) (index : Nat) : List UInt8 → LedgerError → Prop
  | shortWord {bs : List UInt8} : bs.length < 8 → Fault own index bs (.io .unexpectedEnd)
  /-- The length word claims more than a record may hold; no byte of the record is read. -/
  | tooLong {n : Nat} {rest : List UInt8} : n < 2 ^ 64 → maxRecordLen < n →
      Fault own index (le64 n ++ rest) (.corruptSnapshot (.tooLong index n))
  | shortBytes {n : Nat} {rest : List UInt8} : n ≤ maxRecordLen → rest.length < n →
      Fault own index (le64 n ++ rest) (.io .unexpectedEnd)
  | notUtf8 {bytes rest : List UInt8} {e : Utf8.Utf8Error} : bytes.length ≤ maxRecordLen →
      Utf8.decode bytes = .error e →
      Fault own index (le64 bytes.length ++ bytes ++ rest) (.corruptSnapshot (.notUtf8 index e))
  | empty {rest : List UInt8} : adds own "" → Fault own index (record "" ++ rest) .emptyPath

@[simp] theorem adds_some (skip path : String) : adds (some skip) path = (path != skip) := rfl

@[simp] theorem adds_none (path : String) : adds none path = false := rfl

theorem replay_nil (l : Ledger) (own : Option String) : replay l own [] = l := by
  simp [replay]

theorem replay_replay (l : Ledger) (own : Option String) (ds ds' : List String) :
    replay (replay l own ds) own ds' = replay l own (ds ++ ds') := by
  simp [replay]

theorem Sound.nil (own : Option String) : Sound own [] := ⟨fun _ mem => by simp at mem, fun _ mem => by simp at mem⟩

theorem Sound.cons {own : Option String} {d : String} {ds : List String} (first : Sound own [d])
    (rest : Sound own ds) : Sound own (d :: ds) where
  fits := by
    intro d' mem
    rcases List.mem_cons.mp mem with rfl | later
    · exact first.fits d' List.mem_cons_self
    · exact rest.fits d' later
  nonempty := by
    intro d' mem
    rcases List.mem_cons.mp mem with rfl | later
    · exact first.nonempty d' List.mem_cons_self
    · exact rest.nonempty d' later

theorem Sound.tail {own : Option String} {d : String} {ds : List String} (sound : Sound own (d :: ds)) :
    Sound own ds :=
  ⟨sound.fits.tail, fun d' mem => sound.nonempty d' (List.mem_cons_of_mem d mem)⟩

theorem Sound.head {own : Option String} {d : String} {ds : List String} (sound : Sound own (d :: ds)) :
    Sound own [d] :=
  ⟨fun _ mem => sound.fits _ (by simp_all), fun _ mem => sound.nonempty _ (by simp_all)⟩

/-! The words of a record. -/

theorem foldr_bytes_lt (bs : List UInt8) : bs.foldr (fun b acc => b.toNat + 256 * acc) 0 < 256 ^ bs.length := by
  induction bs with
  | nil => simp
  | cons b bs ih =>
    have := b.toNat_lt
    rw [List.foldr_cons, List.length_cons, Nat.pow_succ]
    omega

theorem readLe64_lt (bs : List UInt8) : readLe64 bs < 2 ^ 64 :=
  calc readLe64 bs < 256 ^ (bs.take 8).length := foldr_bytes_lt _
    _ ≤ 256 ^ 8 := Nat.pow_le_pow_right (by decide) (List.length_take_le 8 bs)
    _ = 2 ^ 64 := rfl

-- A word read from eight bytes is written back as those bytes.
theorem le64_readLe64 {bs : List UInt8} (long : 8 ≤ bs.length) : le64 (readLe64 bs) = bs.take 8 := by
  match bs, long with
  | a :: b :: c :: d :: e :: f :: g :: h :: _, _ =>
    have := a.toNat_lt; have := b.toNat_lt; have := c.toNat_lt; have := d.toNat_lt
    have := e.toNat_lt; have := f.toNat_lt; have := g.toNat_lt; have := h.toNat_lt
    simp only [le64, readLe64, List.take_succ_cons, List.take_zero, List.foldr_cons, List.foldr_nil,
      List.range_succ, List.range_zero, List.nil_append, List.cons_append, List.map_cons, List.map_nil,
      List.cons.injEq, and_true]
    refine ⟨?_, ?_, ?_, ?_, ?_, ?_, ?_, ?_⟩ <;> apply UInt8.toNat_inj.mp <;> simp <;> omega

theorem eq_le64_append {bs : List UInt8} (long : 8 ≤ bs.length) : bs = le64 (readLe64 bs) ++ bs.drop 8 := by
  rw [le64_readLe64 long, List.take_append_drop]

/-! One record: it is sound, or it fails with one of the faults. -/

theorem restoreRecords_sound (own : Option String) (index count : Nat) {d : String} (sound : Sound own [d])
    (rest : List UInt8) (l : Ledger) (added : Nat) :
    restoreRecords own index (count + 1) (record d ++ rest) l added =
      restoreRecords own (index + 1) count rest (replay l own [d]) (added + ([d].filter (adds own)).length) := by
  rw [restoreRecords_record _ _ _ _ (sound.fits d List.mem_cons_self)]
  cases own with
  | none => simp [replay]
  | some skip =>
    by_cases same : d = skip
    · subst same
      simp [replay]
    · have accepted : l.addDependency d = .ok { l with deps := l.deps ++ [l.vpath.apply d] } :=
        Ledger.addDependency_eq_ok_iff.mpr ⟨sound.nonempty d List.mem_cons_self (by simp [same]), rfl⟩
      simp [same, accepted, replay, List.filter_cons]

theorem restoreRecords_fault {own : Option String} {index : Nat} {bs : List UInt8} {e : LedgerError}
    (fault : Fault own index bs e) (count : Nat) (l : Ledger) (added : Nat) :
    restoreRecords own index (count + 1) bs l added = (l, .error e) := by
  cases fault with
  | shortWord short => rw [restoreRecords, if_pos short]
  | @tooLong n rest small tooLarge =>
    have whole : ¬ (le64 n ++ rest).length < 8 := by simp [length_le64]
    rw [restoreRecords, if_neg whole, readLe64_le64_of_lt small, if_pos tooLarge]
  | shortBytes bounded short => exact restoreRecords_truncated own index count bounded short l added
  | @notUtf8 bytes rest err bounded bad =>
    have whole : ¬ (le64 bytes.length ++ bytes ++ rest).length < 8 := by simp [length_le64]
    have word : readLe64 (le64 bytes.length ++ bytes ++ rest) = bytes.length := by
      rw [List.append_assoc, readLe64_le64_of_lt]
      unfold maxRecordLen at bounded
      omega
    have body : (le64 bytes.length ++ bytes ++ rest).drop 8 = bytes ++ rest := by
      simp [List.drop_append, length_le64]
    rw [restoreRecords, if_neg whole]
    simp only [word, body, if_neg (Nat.not_lt.mpr bounded), List.take_left, bad]
    simp
  | @empty rest adding =>
    rw [restoreRecords_record _ _ _ _ (by simp [Utf8.encode, maxRecordLen])]
    cases own with
    | none => simp at adding
    | some skip =>
      have other : "" ≠ skip := by simpa using adding
      simp [other, Ledger.addDependency]

-- Past its length word, a record is read whole, and UTF-8 that reads back is
-- the encoding of the text it reads as.
theorem record_cases (own : Option String) (index : Nat) (bs : List UInt8) :
    (∃ e, Fault own index bs e) ∨ ∃ d rest, bs = record d ++ rest ∧ Sound own [d] := by
  by_cases short : bs.length < 8
  · exact .inl ⟨_, .shortWord short⟩
  obtain ⟨n, tail, small, rfl⟩ : ∃ n tail, n < 2 ^ 64 ∧ bs = le64 n ++ tail :=
    ⟨readLe64 bs, bs.drop 8, readLe64_lt bs, eq_le64_append (by omega)⟩
  by_cases tooLarge : maxRecordLen < n
  · exact .inl ⟨_, .tooLong small tooLarge⟩
  by_cases cut : tail.length < n
  · exact .inl ⟨_, .shortBytes (by omega) cut⟩
  obtain ⟨bytes, rest, rfl, rfl⟩ : ∃ bytes rest, tail = bytes ++ rest ∧ n = bytes.length :=
    ⟨tail.take n, tail.drop n, (List.take_append_drop n tail).symm, by simp; omega⟩
  cases decoded : Utf8.decode bytes with
  | error e =>
    rw [← List.append_assoc]
    exact .inl ⟨_, .notUtf8 (by omega) decoded⟩
  | ok path =>
    obtain rfl : Utf8.encode path = bytes := Utf8.encode_of_decode decoded
    by_cases refused : adds own path ∧ path = ""
    · obtain ⟨adding, rfl⟩ := refused
      exact .inl ⟨_, .empty adding⟩
    · refine .inr ⟨path, rest, rfl, ⟨?_, ?_⟩⟩
      · intro d mem
        rw [List.mem_singleton.mp mem]
        omega
      · intro d mem adding blank
        rw [List.mem_singleton.mp mem] at adding blank
        exact refused ⟨adding, blank⟩

/-! Runs of records: sound ones are added in order, the first fault stops the run. -/

theorem length_filter_cons (own : Option String) (d : String) (ds : List String) :
    ([d].filter (adds own)).length + (ds.filter (adds own)).length = ((d :: ds).filter (adds own)).length := by
  rw [← List.length_append, ← List.filter_append, List.singleton_append]

theorem restoreRecords_sound_run (own : Option String) (index : Nat) (ds : List String) (sound : Sound own ds)
    (count : Nat) (rest : List UInt8) (l : Ledger) (added : Nat) :
    restoreRecords own index (ds.length + count) (ds.flatMap record ++ rest) l added =
      restoreRecords own (index + ds.length) count rest (replay l own ds) (added + (ds.filter (adds own)).length) := by
  induction ds generalizing index l added with
  | nil => simp [replay_nil]
  | cons d ds ih =>
    rw [List.length_cons, Nat.add_right_comm, List.flatMap_cons, List.append_assoc,
      restoreRecords_sound _ _ _ sound.head, ih _ sound.tail, replay_replay, List.singleton_append,
      Nat.add_assoc added, length_filter_cons, Nat.add_assoc index, Nat.add_comm 1]

theorem restoreRecords_outcome (own : Option String) (index count : Nat) (bs : List UInt8) (l : Ledger)
    (added : Nat) :
    (∃ ds rest, ds.length = count ∧ bs = ds.flatMap record ++ rest ∧ Sound own ds ∧
      restoreRecords own index count bs l added = (replay l own ds, .ok (added + (ds.filter (adds own)).length))) ∨
    (∃ ds tail e, ds.length < count ∧ bs = ds.flatMap record ++ tail ∧ Sound own ds ∧
      Fault own (index + ds.length) tail e ∧ restoreRecords own index count bs l added = (replay l own ds, .error e)) := by
  induction count generalizing index bs l added with
  | zero => exact .inl ⟨[], bs, rfl, rfl, Sound.nil own, by simp [restoreRecords, replay_nil]⟩
  | succ count ih =>
    rcases record_cases own index bs with ⟨e, fault⟩ | ⟨d, rest, rfl, sound⟩
    · exact .inr ⟨[], bs, e, by simp, rfl, Sound.nil own, fault, by rw [restoreRecords_fault fault, replay_nil]⟩
    rw [restoreRecords_sound _ _ _ sound]
    rcases ih (index + 1) rest (replay l own [d]) _ with
      ⟨ds, rest', length, rfl, sound', run⟩ | ⟨ds, tail, e, shorter, rfl, sound', fault, run⟩
    · refine .inl ⟨d :: ds, rest', by simp [length], by simp, sound.cons sound', ?_⟩
      rw [run, replay_replay, List.singleton_append, Nat.add_assoc added, length_filter_cons]
    · refine .inr ⟨d :: ds, tail, e, by simp; omega, by simp, sound.cons sound', ?_, ?_⟩
      · simpa [Nat.add_assoc, Nat.add_comm 1] using fault
      · rw [run, replay_replay, List.singleton_append]

/-! The count word, then the records. -/

theorem restore_le64 (m : Ledger) (own : Option String) {c : Nat} (small : c < 2 ^ 64) (rest : List UInt8) :
    restore m (le64 c ++ rest) own = restoreRecords own 0 c rest m 0 := by
  have whole : ¬ (le64 c ++ rest).length < 8 := by simp [length_le64]
  rw [restore, if_neg whole, readLe64_le64_of_lt small, List.drop_left' (length_le64 c)]

theorem restore_sound (m : Ledger) (own : Option String) (ds : List String) (small : ds.length < 2 ^ 64)
    (sound : Sound own ds) (rest : List UInt8) :
    restore m (le64 ds.length ++ ds.flatMap record ++ rest) own =
      (replay m own ds, .ok (ds.filter (adds own)).length) := by
  rw [List.append_assoc, restore_le64 m own small, ← Nat.add_zero ds.length,
    restoreRecords_sound_run own 0 ds sound 0 rest m 0]
  simp [restoreRecords]

theorem restore_faulty (m : Ledger) (own : Option String) {c : Nat} (small : c < 2 ^ 64) (ds : List String)
    (shorter : ds.length < c) (sound : Sound own ds) {tail : List UInt8} {e : LedgerError}
    (fault : Fault own ds.length tail e) :
    restore m (le64 c ++ ds.flatMap record ++ tail) own = (replay m own ds, .error e) := by
  obtain ⟨n, rfl⟩ : ∃ n, c = ds.length + (n + 1) := ⟨c - ds.length - 1, by omega⟩
  rw [List.append_assoc, restore_le64 m own small, restoreRecords_sound_run own 0 ds sound, Nat.zero_add,
    restoreRecords_fault fault]

theorem restore_short (m : Ledger) (own : Option String) {b : List UInt8} (short : b.length < 8) :
    restore m b own = (m, .error (.io .unexpectedEnd)) := by
  rw [restore, if_pos short]

-- Every restore is one of the three: the count word is cut short, all
-- records are sound, or a fault stops it.
theorem restore_cases (m : Ledger) (b : List UInt8) (own : Option String) :
    b.length < 8 ∨
    (∃ ds rest, ds.length < 2 ^ 64 ∧ b = le64 ds.length ++ ds.flatMap record ++ rest ∧ Sound own ds) ∨
    (∃ c ds tail e, c < 2 ^ 64 ∧ ds.length < c ∧ b = le64 c ++ ds.flatMap record ++ tail ∧ Sound own ds ∧
      Fault own ds.length tail e) := by
  by_cases short : b.length < 8
  · exact .inl short
  obtain ⟨c, rest, small, rfl⟩ : ∃ c rest, c < 2 ^ 64 ∧ b = le64 c ++ rest :=
    ⟨readLe64 b, b.drop 8, readLe64_lt b, eq_le64_append (by omega)⟩
  rcases restoreRecords_outcome own 0 c rest m 0 with
    ⟨ds, rest', rfl, rfl, sound, -⟩ | ⟨ds, tail, e, shorter, rfl, sound, fault, -⟩
  · exact .inr (.inl ⟨ds, rest', small, by rw [List.append_assoc], sound⟩)
  · exact .inr (.inr ⟨c, ds, tail, e, small, shorter, by rw [List.append_assoc], sound, by simpa using fault⟩)

-- A restore succeeds exactly when the count word is followed by that many
-- sound records, whatever comes after them, and then adds the records other
-- than the own path. Otherwise it fails: with `Io` inside the count word, or
-- with the fault of the first record that is not sound, after adding the
-- sound records before it. Nothing but the dependencies changes either way.
theorem restore_accepts_exactly_sound_records (m : Ledger) (b : List UInt8) (own : Option String) (m' : Ledger) :
    (∀ k, restore m b own = (m', .ok k) ↔
      ∃ ds rest, ds.length < 2 ^ 64 ∧ b = le64 ds.length ++ ds.flatMap record ++ rest ∧ Sound own ds ∧
        k = (ds.filter (adds own)).length ∧ m' = replay m own ds) ∧
    (∀ e, restore m b own = (m', .error e) ↔
      (b.length < 8 ∧ e = .io .unexpectedEnd ∧ m' = m) ∨
      ∃ c ds tail, c < 2 ^ 64 ∧ ds.length < c ∧ b = le64 c ++ ds.flatMap record ++ tail ∧ Sound own ds ∧
        Fault own ds.length tail e ∧ m' = replay m own ds) := by
  have ok_of : ∀ k, (∃ ds rest, ds.length < 2 ^ 64 ∧ b = le64 ds.length ++ ds.flatMap record ++ rest ∧
      Sound own ds ∧ k = (ds.filter (adds own)).length ∧ m' = replay m own ds) → restore m b own = (m', .ok k) := by
    rintro k ⟨ds, rest, small, rfl, sound, rfl, rfl⟩
    exact restore_sound m own ds small sound rest
  have error_of : ∀ e, ((b.length < 8 ∧ e = .io .unexpectedEnd ∧ m' = m) ∨
      ∃ c ds tail, c < 2 ^ 64 ∧ ds.length < c ∧ b = le64 c ++ ds.flatMap record ++ tail ∧ Sound own ds ∧
        Fault own ds.length tail e ∧ m' = replay m own ds) → restore m b own = (m', .error e) := by
    rintro e (⟨short, rfl, rfl⟩ | ⟨c, ds, tail, small, shorter, rfl, sound, fault, rfl⟩)
    · exact restore_short _ own short
    · exact restore_faulty m own small ds shorter sound fault
  refine ⟨fun k => ⟨fun restored => ?_, ok_of k⟩, fun e => ⟨fun restored => ?_, error_of e⟩⟩
  all_goals
    rcases restore_cases m b own with
      short | ⟨ds, rest, small, rfl, sound⟩ | ⟨c, ds, tail, e', small, shorter, rfl, sound, fault⟩
  · rw [restore_short m own short] at restored
    simp at restored
  · rw [restore_sound m own ds small sound] at restored
    simp only [Prod.mk.injEq, Except.ok.injEq] at restored
    obtain ⟨rfl, rfl⟩ := restored
    exact ⟨ds, rest, small, rfl, sound, rfl, rfl⟩
  · rw [restore_faulty m own small ds shorter sound fault] at restored
    simp at restored
  · rw [restore_short m own short] at restored
    simp only [Prod.mk.injEq, Except.error.injEq] at restored
    obtain ⟨rfl, rfl⟩ := restored
    exact .inl ⟨short, rfl, rfl⟩
  · rw [restore_sound m own ds small sound] at restored
    simp at restored
  · rw [restore_faulty m own small ds shorter sound fault] at restored
    simp only [Prod.mk.injEq, Except.error.injEq] at restored
    obtain ⟨rfl, rfl⟩ := restored
    exact .inr ⟨c, ds, tail, small, shorter, rfl, sound, fault, rfl⟩

-- An empty record is refused as an empty dependency would be.
example : restore {} (le64 1 ++ le64 0) (some "x") = ({}, .error .emptyPath) := by
  decide

end Provenance.Snapshot
