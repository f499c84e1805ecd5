import Provenance.Proofs.DocumentBuild
import Provenance.Proofs.NoteRoundTrip
import Provenance.Proofs.StoreRefinement
/-!
Finishing a session is a best-effort pipeline: every configured algorithm
gets exactly one entry, in configuration order, and each entry is either the
record of the document that was stored or the failure that stopped that
algorithm alone. A recorded entry names the document of the dependencies the
file system could read when its algorithm ran, lists the others in ledger
order, says where the store keeps the document, and has a metadata path
exactly when the build step has an output. The note section names the
recorded documents, in order.

The step is one algorithm's record, which builds (never failing), stores and
writes metadata; the run is finishing the configured algorithms in turn.
-/

namespace Provenance

open Store

def unreadable (t : Files.Tree) (paths : List String) : List String :=
  paths.filter fun p => !(t.readFile p).toBool

/-- The entry of an algorithm whose document was stored and whose metadata was
written, with the dependencies read from `t`. -/
structure AlgReport.Recorded (t : Files.Tree) (location : Gitoid → Option String) (ledger : Ledger)
    (ctx : BuildContext) (alg : HashAlg) (r : AlgReport) : Prop where
  algorithm : r.alg = alg
  document : ∃ doc, Document.ofGitoids alg (readableGitoids t alg ledger.deps) = .ok doc ∧
    r.document = some doc.gitoid ∧ r.objectPath = location doc.gitoid
  entries : r.entries = (readableGitoids t alg ledger.deps).length
  skipped : r.skipped = unreadable t ledger.deps
  metadata : r.metadataPath.isSome = (ctx.resolveOutput ledger.primaryInput).isSome
  error : r.error = none

/-- The entry of an algorithm that failed: nothing recorded, and the error of
the store call that stopped it. -/
def AlgReport.Failed (alg : HashAlg) (r : AlgReport) : Prop :=
  ∃ e : StoreError, r = AlgReport.failed alg (SessionError.store e).message

namespace Store

theorem scan_skipped (t : Files.Tree) (alg : HashAlg) (paths : List String) :
    (scan t alg paths).skipped = unreadable t paths := by
  induction paths with
  | nil => rfl
  | cons p rest ih =>
    simp only [scan] at ih ⊢
    rw [List.map_cons, List.filterMap_cons, unreadable, List.filter_cons, ← unreadable, ← ih]
    cases read : t.readFile p <;> simp [hashFile, read, Except.map, Except.toBool]

end Store

-- A metadata write that succeeds returns a path exactly when the step has an output.
theorem recordMetadata_isSome {d : Disk} {root : String} {alg : HashAlg} {ctx : BuildContext}
    {primaryInput : Option String} {records : List DepRecord} {written : Option String}
    (recorded : (recordMetadata d root alg ctx primaryInput records).2 = .ok written) :
    written.isSome = (ctx.resolveOutput primaryInput).isSome := by
  cases resolved : ctx.resolveOutput primaryInput with
  | none =>
    rw [recordMetadata_of_no_output d root alg records resolved] at recorded
    cases recorded
    rfl
  | some output =>
    unfold recordMetadata at recorded
    cases named : Files.fileName output with
    | none => simp [resolved, metadataFileName, named] at recorded
    | some name =>
      simp only [resolved, metadataFileName, named] at recorded
      obtain ⟨d1, leafDone⟩ := withLevels_ok recorded
      split at leafDone
      · cases leafDone
        rfl
      · cases leafDone

namespace ObjectStore

theorem write_location (s : ObjectStore) (d : Disk) (doc : Document) :
    (s.write d doc).1.location = s.location := by
  cases s <;> rfl

theorem write_id {s : ObjectStore} {d : Disk} {doc : Document} {id : Gitoid}
    (stored : (s.write d doc).2.2 = .ok id) : id = doc.gitoid := by
  cases s with
  | disk ds =>
    simp only [write, DiskStore.write] at stored
    split at stored <;> simp_all
  | memory ms =>
    simp only [write, MemoryStore.write] at stored
    split at stored <;> simp_all

end ObjectStore

theorem AlgReport.Recorded.congr {t : Files.Tree} {location location' : Gitoid → Option String} {ledger ledger' : Ledger}
    {ctx : BuildContext} {alg : HashAlg} {r : AlgReport} (recorded : AlgReport.Recorded t location ledger ctx alg r)
    (sameLocation : location = location') (sameLedger : ledger = ledger') :
    AlgReport.Recorded t location' ledger' ctx alg r := by
  subst sameLocation sameLedger
  exact recorded

-- The search for a repetition carries the algorithms seen so far; it finds
-- none exactly when the rest is distinct and disjoint from them.
theorem Config.firstRepeat_eq_none_iff (seen algs : List HashAlg) :
    Config.validate.firstRepeat seen algs = none ↔ algs.Nodup ∧ ∀ a ∈ algs, a ∉ seen := by
  induction algs generalizing seen with
  | nil => simp [Config.validate.firstRepeat]
  | cons a rest ih =>
    rw [Config.validate.firstRepeat]
    by_cases seenA : a ∈ seen
    · simp [seenA]
    · rw [if_neg seenA, ih, List.nodup_cons]
      simp only [List.mem_cons, not_or]
      grind

theorem Config.validate_eq_ok_iff (c : Config) : c.validate = .ok () ↔ c.algorithms.Nodup := by
  have search := Config.firstRepeat_eq_none_iff [] c.algorithms
  unfold Config.validate
  cases found : Config.validate.firstRepeat [] c.algorithms with
  | none => simpa [found] using search
  | some a => simpa [found] using search

-- Among entries of distinct algorithms, looking one up finds that entry.
theorem Report.get?_getElem {r : Report} (distinct : (r.algorithms.map (·.alg)).Nodup) (i : Nat)
    (h : i < r.algorithms.length) : r.get? r.algorithms[i].alg = some r.algorithms[i] := by
  unfold Report.get?
  rw [List.find?_eq_some_iff_getElem]
  refine ⟨by simp, i, h, rfl, fun j before => ?_⟩
  have other := List.pairwise_iff_getElem.mp distinct j i (by simp; omega) (by simpa using h) before
  simpa using other

namespace Session

variable (s : Session) (d : Disk) (ctx : BuildContext) (alg : HashAlg)

-- Recording one algorithm changes the session only in its store, whose
-- locations stay the same.
theorem record_frame :
    (s.record d ctx alg).1.config = s.config ∧ (s.record d ctx alg).1.ledger = s.ledger ∧
      (s.record d ctx alg).1.store.location = s.store.location := by
  unfold record
  rw [build_eq]
  dsimp only
  have moved := s.store.write_location d ⟨alg, Document.sortGitoids (readableGitoids d.tree alg s.ledger.deps)⟩
  generalize s.store.write d _ = written at moved ⊢
  obtain ⟨store, d1, r⟩ := written
  cases r with
  | error e => exact ⟨rfl, rfl, moved⟩
  | ok id =>
    simp only
    split <;> exact ⟨rfl, rfl, moved⟩

-- The build never fails, so an algorithm stops only at the store write or the
-- metadata write; otherwise its entry records the document of what the disk
-- could read.
theorem record_outcome :
    (∃ e, (s.record d ctx alg).2.2 = .error (.store e)) ∨
      ∃ r, (s.record d ctx alg).2.2 = .ok r ∧ AlgReport.Recorded d.tree s.store.location s.ledger ctx alg r := by
  unfold record
  rw [build_eq]
  dsimp only
  have sameAlg : ∀ g ∈ readableGitoids d.tree alg s.ledger.deps, g.alg = alg := readableGitoids_uniform
  have uniform := Document.ofGitoids_of_uniform sameAlg
  generalize doc : (⟨alg, Document.sortGitoids (readableGitoids d.tree alg s.ledger.deps)⟩ : Document) = document at uniform
  have moved := s.store.write_location d document
  have named : ∀ id, (s.store.write d document).2.2 = .ok id → id = document.gitoid := fun _ => ObjectStore.write_id
  generalize s.store.write d document = written at moved named ⊢
  obtain ⟨store, d1, r⟩ := written
  cases r with
  | error e => exact .inl ⟨e, rfl⟩
  | ok id =>
    obtain rfl := named id rfl
    simp only
    have metadata := @recordMetadata_isSome d1 s.config.root alg ctx s.ledger.primaryInput
      (scan d.tree alg s.ledger.deps).records
    generalize recordMetadata d1 _ _ _ _ _ = recorded at metadata ⊢
    obtain ⟨d2, r⟩ := recorded
    cases r with
    | error e => exact .inl ⟨e, rfl⟩
    | ok written =>
      refine .inr ⟨_, rfl, ⟨rfl, ⟨document, uniform, rfl, by rw [moved]⟩, ?_, scan_skipped _ _ _, metadata rfl, rfl⟩⟩
      rw [← doc]
      exact (Document.sortGitoids_perm _).length_eq

-- Whatever the record gives, the entry made of it is recorded or failed.
theorem entry_outcome :
    AlgReport.Recorded d.tree s.store.location s.ledger ctx alg (entryOf alg (s.record d ctx alg).2.2) ∨
      AlgReport.Failed alg (entryOf alg (s.record d ctx alg).2.2) := by
  rcases s.record_outcome d ctx alg with ⟨e, failed⟩ | ⟨r, recorded, described⟩
  · exact .inr ⟨e, by simp only [failed, entryOf]⟩
  · exact .inl (by rw [recorded]; exact described)

-- Finishing the algorithms in turn: one entry each, in order, each describing
-- the disk as the algorithms before it left it.
theorem finishWith_entries (algs : List HashAlg) :
    (finishWith ctx s d algs).2.2.map (·.alg) = algs ∧
      ∀ i (h : i < algs.length), ∃ r, (finishWith ctx s d algs).2.2[i]? = some r ∧
        (AlgReport.Recorded (finishWith ctx s d (algs.take i)).2.1.tree s.store.location s.ledger ctx algs[i] r ∨
          AlgReport.Failed algs[i] r) := by
  induction algs generalizing s d with
  | nil => exact ⟨rfl, fun i h => absurd h (Nat.not_lt_zero i)⟩
  | cons alg rest ih =>
    have first := s.entry_outcome d ctx alg
    obtain ⟨-, sameLedger, sameLocation⟩ := s.record_frame d ctx alg
    have later := ih (s.record d ctx alg).1 (s.record d ctx alg).2.1
    simp only [finishWith]
    generalize step : s.record d ctx alg = recorded at first sameLedger sameLocation later
    obtain ⟨s1, d1, r⟩ := recorded
    simp only at first sameLedger sameLocation later ⊢
    generalize entryOf alg r = entry at first ⊢
    have named : entry.alg = alg := by
      rcases first with described | ⟨e, rfl⟩
      · exact described.algorithm
      · rfl
    refine ⟨by rw [List.map_cons, named, later.1], fun i h => ?_⟩
    cases i with
    | zero => exact ⟨_, rfl, first⟩
    | succ i =>
      obtain ⟨r', found, described⟩ := later.2 i (by simpa using h)
      refine ⟨r', by simpa using found, ?_⟩
      rcases described with recorded | failed
      · left
        rw [List.getElem_cons_succ, List.take_succ_cons]
        simp only [finishWith, step]
        exact recorded.congr sameLocation sameLedger
      · exact .inr failed

end Session

-- Finishing a session with distinct algorithms: one entry per algorithm, in
-- order, found by looking its algorithm up; each recorded, against the disk
-- the earlier algorithms left, or failed with the store error that stopped it;
-- and a note naming the recorded documents in order.
theorem finish_reports_every_algorithm (s : Session) (d : Disk) (ctx : BuildContext)
    (valid : s.config.validate = .ok ()) :
    (s.finish d ctx).2.2.algorithms.map (·.alg) = s.config.algorithms ∧
    (∀ i (h : i < s.config.algorithms.length), ∃ r, (s.finish d ctx).2.2.algorithms[i]? = some r ∧
      (s.finish d ctx).2.2.get? s.config.algorithms[i] = some r ∧
      (AlgReport.Recorded (Session.finishWith ctx s d (s.config.algorithms.take i)).2.1.tree s.store.location
          s.ledger ctx s.config.algorithms[i] r ∨
        AlgReport.Failed s.config.algorithms[i] r)) ∧
    Note.decodeSection (s.finish d ctx).2.2.noteSection = .ok ((s.finish d ctx).2.2.documents.map Note.mk) := by
  obtain ⟨named, described⟩ := s.finishWith_entries d ctx s.config.algorithms
  have distinct := (Config.validate_eq_ok_iff s.config).mp valid
  unfold Session.finish
  generalize Session.finishWith ctx s d s.config.algorithms = finished at named described
  obtain ⟨s1, d1, entries⟩ := finished
  refine ⟨named, fun i h => ?_, Note.decodeSection_encodeSection _⟩
  obtain ⟨r, found, recorded⟩ := described i h
  have inside : i < entries.length := by
    rw [← List.length_map (f := (·.alg)), named]
    exact h
  obtain rfl : entries[i] = r := by simpa [inside] using found
  have own : entries[i].alg = s.config.algorithms[i] := by
    simp only [← named, List.getElem_map]
  refine ⟨entries[i], found, ?_, recorded⟩
  rw [← own]
  exact Report.get?_getElem (r := ⟨entries⟩) (by rw [named]; exact distinct) i inside

theorem two_algorithm_session_reports_both :
    (⟨{ algorithms := [.sha1, .sha256] }, {}, .memory {}⟩ : Session).config.validate = .ok () ∧
    ((⟨{ algorithms := [.sha1, .sha256] }, {}, .memory {}⟩ : Session).finish ⟨{}, {}⟩ {}).2.2.algorithms.map (·.alg) =
        [.sha1, .sha256] ∧
    (∀ i (h : i < [HashAlg.sha1, .sha256].length), ∃ r,
      ((⟨{ algorithms := [.sha1, .sha256] }, {}, .memory {}⟩ : Session).finish ⟨{}, {}⟩ {}).2.2.algorithms[i]? = some r ∧
      ((⟨{ algorithms := [.sha1, .sha256] }, {}, .memory {}⟩ : Session).finish ⟨{}, {}⟩ {}).2.2.get?
        [HashAlg.sha1, .sha256][i] = some r ∧
      (AlgReport.Recorded (Session.finishWith {} ⟨{ algorithms := [.sha1, .sha256] }, {}, .memory {}⟩ ⟨{}, {}⟩
            ([HashAlg.sha1, .sha256].take i)).2.1.tree (ObjectStore.memory {}).location {} {}
          [HashAlg.sha1, .sha256][i] r ∨
        AlgReport.Failed [HashAlg.sha1, .sha256][i] r)) ∧
    Note.decodeSection ((⟨{ algorithms := [.sha1, .sha256] }, {}, .memory {}⟩ : Session).finish ⟨{}, {}⟩ {}).2.2.noteSection =
      .ok (((⟨{ algorithms := [.sha1, .sha256] }, {}, .memory {}⟩ : Session).finish ⟨{}, {}⟩ {}).2.2.documents.map
        Note.mk) :=
  ⟨rfl, finish_reports_every_algorithm _ _ _ rfl⟩

end Provenance
