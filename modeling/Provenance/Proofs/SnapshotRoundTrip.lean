import Provenance.Proofs.LedgerDependencies
import Provenance.Proofs.Utf8RoundTrip
import Mathlib.Algebra.Group.Nat.Defs
/-!
Snapshots read back. Saving writes the count and each dependency's length as
a little-endian 64-bit word and the dependency's UTF-8 bytes; restoring
reads the same words back, so one record of the snapshot is one step of the
restore: the path comes back as it was written and is added through the
ledger's `addDependency`, or skipped. Two things stand between a ledger and
its snapshot: a word holds the count only below `2 ^ 64`, and a record
longer than a mebibyte is refused. Within them, restoring adds every saved
dependency except the compilation's own path, rewritten by the restoring
ledger's vpath rules, until it meets an empty one, which `addDependency`
refuses. The bytes after the snapshot are never read, and a snapshot cut
short anywhere is refused.

A ledger's dependencies are already rewritten, and the rewrite leaves no
leading `./`, so a ledger without vpath rules takes them back unchanged.
-/

namespace Provenance

namespace Vpath

theorem stripDotSlash_stripDotSlash (cs : List Char) :
    stripDotSlash (stripDotSlash cs) = stripDotSlash cs := by
  fun_induction stripDotSlash cs with
  | case1 rest ih => exact ih
  | case2 cs notPiece =>
    rw [stripDotSlash]
    exact notPiece

-- No rules: only the leading `./` pieces go, and a rewritten path has none.
theorem apply_empty_apply (v : Vpath) (p : String) : ({} : Vpath).apply (v.apply p) = v.apply p := by
  simp [apply, stripFirst, stripDotSlash_stripDotSlash]

end Vpath

namespace Ledger

theorem apply_empty_of_mem_run {ops : List Op} {d : String} (mem : d ∈ (run {} ops).deps) :
    ({} : Vpath).apply d = d := by
  rcases run_deps mem with initial | ⟨i, -, path, -, -, rfl⟩
  · simp at initial
  · exact Vpath.apply_empty_apply _ path

end Ledger

namespace Snapshot

open Text

theorem length_le64 (n : Nat) : (le64 n).length = 8 := rfl

theorem readLe64_le64 (n : Nat) (rest : List UInt8) : readLe64 (le64 n ++ rest) = n % 2 ^ 64 := by
  simp [readLe64, le64, List.range_succ]
  omega

theorem readLe64_le64_of_lt {n : Nat} (small : n < 2 ^ 64) (rest : List UInt8) :
    readLe64 (le64 n ++ rest) = n := by
  rw [readLe64_le64, Nat.mod_eq_of_lt small]

def Fits (ds : List String) : Prop := ∀ d ∈ ds, (Utf8.encode d).length ≤ maxRecordLen

theorem Fits.tail {d : String} {ds : List String} (fits : Fits (d :: ds)) : Fits ds :=
  fun d' mem => fits d' (List.mem_cons_of_mem d mem)

/-! One record: its length word and its bytes are read back as written. -/

theorem restoreRecords_record (self : Option String) (index count : Nat) (d : String)
    (bounded : (Utf8.encode d).length ≤ maxRecordLen) (rest : List UInt8) (l : Ledger) (added : Nat) :
    restoreRecords self index (count + 1) (record d ++ rest) l added =
      match self with
      | some skip =>
        if d ≠ skip then
          match l.addDependency d with
          | .error e => (l, .error e)
          | .ok l' => restoreRecords self (index + 1) count rest l' (added + 1)
        else restoreRecords self (index + 1) count rest l added
      | none => restoreRecords self (index + 1) count rest l added := by
  have whole : ¬ (record d ++ rest).length < 8 := by simp [record, length_le64]
  have word : readLe64 (record d ++ rest) = (Utf8.encode d).length := by
    rw [record, List.append_assoc, readLe64_le64_of_lt]
    unfold maxRecordLen at bounded
    omega
  have body : (record d ++ rest).drop 8 = Utf8.encode d ++ rest := by
    simp [record, List.drop_append, length_le64]
  rw [restoreRecords, if_neg whole]
  simp only [word, body, if_neg (Nat.not_lt.mpr bounded), List.take_left, List.drop_left,
    Utf8.decode_encode]
  exact if_neg (by simp)

-- A record whose bytes stop before its length word says they end.
theorem restoreRecords_truncated (self : Option String) (index count : Nat) {n : Nat}
    (bounded : n ≤ maxRecordLen) {part : List UInt8} (short : part.length < n) (l : Ledger) (added : Nat) :
    restoreRecords self index (count + 1) (le64 n ++ part) l added = (l, .error (.io .unexpectedEnd)) := by
  have whole : ¬ (le64 n ++ part).length < 8 := by simp [length_le64]
  have word : readLe64 (le64 n ++ part) = n := by
    apply readLe64_le64_of_lt
    unfold maxRecordLen at bounded
    omega
  have body : (le64 n ++ part).drop 8 = part := List.drop_left' (length_le64 n)
  rw [restoreRecords, if_neg whole]
  simp only [word, body, if_neg (Nat.not_lt.mpr bounded), if_pos short]

/-! Whole runs of records, by induction on the saved dependencies. -/

theorem restoreRecords_discard (index : Nat) (ds : List String) (fits : Fits ds) (rest : List UInt8)
    (l : Ledger) (added : Nat) :
    restoreRecords none index ds.length (ds.flatMap record ++ rest) l added = (l, .ok added) := by
  induction ds generalizing index with
  | nil => rfl
  | cons d ds ih =>
    rw [List.length_cons, List.flatMap_cons, List.append_assoc,
      restoreRecords_record _ _ _ _ (fits d List.mem_cons_self)]
    exact ih (index + 1) fits.tail

-- With an own path, every other dependency is added, in order, through the
-- vpath rules of the ledger restored into.
theorem restoreRecords_replay (skip : String) (index : Nat) (ds : List String) (fits : Fits ds)
    (nonempty : ∀ d ∈ ds, d ≠ skip → d ≠ "") (rest : List UInt8) (l : Ledger) (added : Nat) :
    restoreRecords (some skip) index ds.length (ds.flatMap record ++ rest) l added =
      ({ l with deps := l.deps ++ (ds.filter (· ≠ skip)).map l.vpath.apply },
        .ok (added + (ds.filter (· ≠ skip)).length)) := by
  induction ds generalizing index l added with
  | nil => simp [restoreRecords]
  | cons d ds ih =>
    have later : ∀ d' ∈ ds, d' ≠ skip → d' ≠ "" := fun d' mem => nonempty d' (List.mem_cons_of_mem d mem)
    rw [List.length_cons, List.flatMap_cons, List.append_assoc,
      restoreRecords_record _ _ _ _ (fits d List.mem_cons_self)]
    by_cases own : d = skip
    · subst own
      simp [ih _ fits.tail later]
    · have accepted : l.addDependency d = .ok { l with deps := l.deps ++ [l.vpath.apply d] } :=
        Ledger.addDependency_eq_ok_iff.mpr ⟨nonempty d List.mem_cons_self own, rfl⟩
      simp only [ne_eq, own, not_false_eq_true, if_true, accepted]
      rw [ih _ fits.tail later]
      simp [own, Nat.add_assoc, Nat.add_comm 1]

-- An empty dependency that is not the own path stops the restore there.
theorem restoreRecords_empty (skip : String) (index : Nat) (ds : List String) (fits : Fits ds)
    (empty : "" ∈ ds) (other : skip ≠ "") (rest : List UInt8) (l : Ledger) (added : Nat) :
    (restoreRecords (some skip) index ds.length (ds.flatMap record ++ rest) l added).2 =
      .error .emptyPath := by
  induction ds generalizing index l added with
  | nil => simp at empty
  | cons d ds ih =>
    rw [List.length_cons, List.flatMap_cons, List.append_assoc,
      restoreRecords_record _ _ _ _ (fits d List.mem_cons_self)]
    by_cases own : d = skip
    · have later : "" ∈ ds := by
        rcases List.mem_cons.mp empty with first | later
        · exact absurd (own ▸ first.symm) other
        · exact later
      simp [own, ih _ fits.tail later]
    · by_cases blank : d = ""
      · subst blank
        simp [own, Ledger.addDependency]
      · have later : "" ∈ ds := (List.mem_cons.mp empty).resolve_left (Ne.symm blank)
        have accepted : l.addDependency d = .ok { l with deps := l.deps ++ [l.vpath.apply d] } :=
          Ledger.addDependency_eq_ok_iff.mpr ⟨blank, rfl⟩
        simp only [ne_eq, own, not_false_eq_true, if_true, accepted]
        exact ih _ fits.tail later _ _

-- Records cut short fail: inside a record by its length word, between
-- records by the count.
theorem restoreRecords_prefix (self : Option String) (index : Nat) (ds : List String) (fits : Fits ds)
    (bs : List UInt8) (part : bs <+: ds.flatMap record) (short : bs.length < (ds.flatMap record).length)
    (l : Ledger) (added : Nat) :
    ∃ e, (restoreRecords self index ds.length bs l added).2 = .error e := by
  induction ds generalizing index bs l added with
  | nil => simp at short
  | cons d ds ih =>
    rw [List.flatMap_cons] at part short
    by_cases within : bs.length < (record d).length
    · have inRecord : bs <+: record d := List.prefix_of_prefix_length_le part (List.prefix_append _ _) within.le
      by_cases word : bs.length < 8
      · exact ⟨_, by rw [List.length_cons, restoreRecords, if_pos word]⟩
      · obtain ⟨tail, rfl⟩ : ∃ tail, bs = le64 (Utf8.encode d).length ++ tail := by
          have : le64 (Utf8.encode d).length <+: bs :=
            List.prefix_of_prefix_length_le (List.prefix_append _ _) inRecord (by simp [length_le64]; omega)
          obtain ⟨tail, rfl⟩ := this
          exact ⟨tail, rfl⟩
        have cut : tail.length < (Utf8.encode d).length := by
          simp [record, length_le64] at within
          omega
        exact ⟨_, by rw [List.length_cons, restoreRecords_truncated _ _ _ (fits d List.mem_cons_self) cut]⟩
    · obtain ⟨bs', rfl⟩ : ∃ bs', bs = record d ++ bs' := by
        have : record d <+: bs := List.prefix_of_prefix_length_le (List.prefix_append _ _) part (by omega)
        obtain ⟨bs', rfl⟩ := this
        exact ⟨bs', rfl⟩
      have part' : bs' <+: ds.flatMap record := (List.prefix_append_right_inj _).mp part
      have short' : bs'.length < (ds.flatMap record).length := by
        simp only [List.length_append] at short
        omega
      rw [List.length_cons, restoreRecords_record _ _ _ _ (fits d List.mem_cons_self)]
      cases self with
      | none => exact ih _ fits.tail bs' part' short' _ _
      | some skip =>
        by_cases own : d = skip
        · simpa [own] using ih _ fits.tail bs' part' short' l added
        · simp only [ne_eq, own, not_false_eq_true, if_true]
          split
          · exact ⟨_, rfl⟩
          · exact ih _ fits.tail bs' part' short' _ _

/-! The snapshot of a ledger: its count word, then its records. -/

theorem restore_save (l m : Ledger) (counted : l.deps.length < 2 ^ 64) (rest : List UInt8)
    (self : Option String) :
    restore m (save l ++ rest) self =
      restoreRecords self 0 l.deps.length (l.deps.flatMap record ++ rest) m 0 := by
  have whole : ¬ (save l ++ rest).length < 8 := by simp [save, length_le64]
  rw [restore, if_neg whole, save, List.append_assoc, readLe64_le64_of_lt counted,
    List.drop_left' (length_le64 _)]

theorem restore_prefix_save (l m : Ledger) (counted : l.deps.length < 2 ^ 64) (fits : Fits l.deps)
    (bs : List UInt8) (part : bs <+: save l) (short : bs ≠ save l) (self : Option String) :
    ∃ e, (restore m bs self).2 = .error e := by
  have shorter : bs.length < (save l).length :=
    lt_of_le_of_ne part.length_le fun same => short (part.eq_of_length same)
  by_cases word : bs.length < 8
  · exact ⟨_, by rw [restore, if_pos word]⟩
  · obtain ⟨records, rfl⟩ : ∃ records, bs = le64 l.deps.length ++ records := by
      obtain ⟨records, rfl⟩ :=
        List.prefix_of_prefix_length_le (List.prefix_append _ _) part (by simp [length_le64]; omega)
      exact ⟨records, rfl⟩
    have part' : records <+: l.deps.flatMap record := (List.prefix_append_right_inj _).mp part
    have short' : records.length < (l.deps.flatMap record).length := by
      simp only [save, List.length_append, length_le64] at shorter
      omega
    rw [restore, if_neg word, readLe64_le64_of_lt counted, List.drop_left' (length_le64 _)]
    exact restoreRecords_prefix self 0 l.deps fits records part' short' m 0

end Snapshot

open Ledger Snapshot

-- A snapshot of a ledger reached by any run restores it. With an own path
-- that is none of its dependencies, the restore adds them all, rewritten by
-- the rules of the ledger restored into, exactly when none is empty; into a
-- ledger without rules it gives them back as they were. Without an own path
-- it reads them and changes nothing. Bytes after the snapshot are not read,
-- and every shorter prefix is refused.
theorem snapshot_restores_dependencies (l m : Ledger) (reached : ∃ ops, run {} ops = l)
    (fits : ∀ d ∈ l.deps, (Text.Utf8.encode d).length ≤ maxRecordLen) (counted : l.deps.length < 2 ^ 64)
    (s : String) (notOwn : s ∉ l.deps) (rest : List UInt8) :
    (restore m (save l ++ rest) (some s) =
        ({ m with deps := m.deps ++ l.deps.map m.vpath.apply }, .ok l.deps.length) ↔ "" ∉ l.deps) ∧
    ("" ∉ l.deps → (restore {} (save l ++ rest) (some s)).1.deps = l.deps) ∧
    restore m (save l ++ rest) none = (m, .ok 0) ∧
    ∀ bs, bs <+: save l → bs ≠ save l → ∀ self, ∃ e, (restore m bs self).2 = .error e := by
  have others : l.deps.filter (· ≠ s) = l.deps :=
    List.filter_eq_self.mpr fun d mem => decide_eq_true fun same => notOwn (same ▸ mem)
  have replay : ∀ m : Ledger, "" ∉ l.deps → restore m (save l ++ rest) (some s) =
      ({ m with deps := m.deps ++ l.deps.map m.vpath.apply }, .ok l.deps.length) := by
    intro m noEmpty
    rw [restore_save l m counted, restoreRecords_replay s 0 l.deps fits
      (fun d mem _ blank => noEmpty (blank ▸ mem)), others, Nat.zero_add]
  refine ⟨⟨fun restored => ?_, replay m⟩, fun noEmpty => ?_, ?_, ?_⟩
  · intro empty
    have own : s ≠ "" := fun blank => notOwn (blank ▸ empty)
    have refused := restoreRecords_empty s 0 l.deps fits empty own rest m 0
    rw [← restore_save l m counted, restored] at refused
    cases refused
  · obtain ⟨ops, rfl⟩ := reached
    have fresh := congrArg (fun r => r.1.deps) (replay {} noEmpty)
    simp only at fresh
    rw [fresh, List.nil_append]
    exact List.map_congr_left (fun d mem => apply_empty_of_mem_run mem) |>.trans (List.map_id _)
  · rw [restore_save l m counted, restoreRecords_discard 0 l.deps fits]
  · exact fun bs part short self => restore_prefix_save l m counted fits bs part short self

theorem run_of_one_dependency : run {} [.addDependency "a.h"] = ({ deps := ["a.h"] } : Ledger) := by
  have kept : ({} : Vpath).apply "a.h" = "a.h" := by
    simp only [Vpath.apply, Vpath.stripFirst, List.reverse_nil, List.map_nil]
    rw [Vpath.stripDotSlash]
    · rfl
    · simp
  simp [run, step, addDependency, kept]

theorem snapshot_of_one_dependency :
    (∃ ops, run {} ops = ({ deps := ["a.h"] } : Ledger)) ∧
    (∀ d ∈ ({ deps := ["a.h"] } : Ledger).deps, (Text.Utf8.encode d).length ≤ maxRecordLen) ∧
    ({ deps := ["a.h"] } : Ledger).deps.length < 2 ^ 64 ∧ "x" ∉ ({ deps := ["a.h"] } : Ledger).deps ∧
    ((restore {} (save { deps := ["a.h"] } ++ []) (some "x") =
        ({ ({} : Ledger) with deps := ({} : Ledger).deps ++ ["a.h"].map ({} : Ledger).vpath.apply },
          .ok ["a.h"].length) ↔ "" ∉ ["a.h"]) ∧
      ("" ∉ ["a.h"] → (restore {} (save { deps := ["a.h"] } ++ []) (some "x")).1.deps = ["a.h"]) ∧
      restore {} (save { deps := ["a.h"] } ++ []) none = ({}, .ok 0) ∧
      ∀ bs, bs <+: save { deps := ["a.h"] } → bs ≠ save { deps := ["a.h"] } → ∀ self,
        ∃ e, (restore {} bs self).2 = .error e) := by
  have fits : ∀ d ∈ ({ deps := ["a.h"] } : Ledger).deps, (Text.Utf8.encode d).length ≤ maxRecordLen := by
    simp [Text.Utf8.encode_eq_flatMap, String.utf8EncodeChar, maxRecordLen]
  exact ⟨⟨_, run_of_one_dependency⟩, fits, by decide, by decide,
    snapshot_restores_dependencies { deps := ["a.h"] } {} ⟨_, run_of_one_dependency⟩ fits (by decide) "x"
      (by decide) []⟩

-- The empty dependency `./` leaves behind is saved as an empty record, which
-- the restore refuses like an empty path.
theorem empty_dependency_snapshot_refused :
    (∀ d ∈ (run {} [.addDependency "./"]).deps, (Text.Utf8.encode d).length ≤ maxRecordLen) ∧
    "x" ∉ (run {} [.addDependency "./"]).deps ∧
    (restore {} (save (run {} [.addDependency "./"])) (some "x")).2 = .error .emptyPath := by
  have deps := dependency_of_dot_slash
  have fits : Fits (run {} [.addDependency "./"]).deps := by
    simp [Fits, deps, Text.Utf8.encode_eq_flatMap]
  refine ⟨fits, by simp [deps], ?_⟩
  rw [← List.append_nil (save _), restore_save _ {} (by simp [deps]) [] (some "x")]
  exact restoreRecords_empty "x" 0 _ fits (by simp [deps]) (by decide) [] {} 0

end Provenance
