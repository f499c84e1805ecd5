import Provenance.Proofs.SessionFinish
/-!
Scanning dependencies splits the paths in two and orders the readable ones as
the document does. The unreadable paths are skipped in the order given; every
readable occurrence, repeats included, becomes a record of its path and the
gitoid of its content, and the records are sorted stably by gitoid: ascending,
with equal gitoids kept in the order the paths came. The document built from
the scan lists the records' gitoids in that same order, so the metadata
written from the records names the document's entries line by line.

Two sorts meet here, the stable sort of records and the sort of gitoids inside
the document. They agree because comparing records compares their gitoids,
and sorting commutes with forgetting the paths.
-/

namespace Provenance.Store

open Files

variable {t : Tree} {alg : HashAlg}

def readableRecords (t : Tree) (alg : HashAlg) (paths : List String) : List DepRecord :=
  paths.filterMap fun p => (t.readFile p).toOption.map fun bytes => ⟨p, Gitoid.ofBlob alg bytes⟩

def recordLe (a b : DepRecord) : Bool := Gitoid.le a.gitoid b.gitoid

theorem recordLe_trans (a b c : DepRecord) (first : recordLe a b) (second : recordLe b c) : recordLe a c :=
  Gitoid.le_trans first second

theorem recordLe_total (a b : DepRecord) : (recordLe a b || recordLe b a) = true :=
  Gitoid.le_total a.gitoid b.gitoid

theorem scan_records (t : Tree) (alg : HashAlg) (paths : List String) :
    (scan t alg paths).records = (readableRecords t alg paths).mergeSort recordLe := by
  simp only [scan]
  congr 1
  induction paths with
  | nil => rfl
  | cons p rest ih =>
    cases read : t.readFile p <;> simp_all [readableRecords, hashFile, Except.map, Except.toOption]

theorem readableRecords_gitoids (t : Tree) (alg : HashAlg) (paths : List String) :
    (readableRecords t alg paths).map (·.gitoid) = readableGitoids t alg paths := by
  induction paths with
  | nil => rfl
  | cons p rest ih =>
    cases read : t.readFile p <;>
      simp_all [readableRecords, readableGitoids, hashFile, Except.map, Except.toOption]

theorem length_readableRecords (t : Tree) (alg : HashAlg) (paths : List String) :
    (readableRecords t alg paths).length + (unreadable t paths).length = paths.length := by
  induction paths with
  | nil => rfl
  | cons p rest ih =>
    cases read : t.readFile p <;>
      simp [readableRecords, unreadable, read, Except.toOption, Except.toBool] at ih ⊢ <;> omega

theorem scan_ascending (t : Tree) (alg : HashAlg) (paths : List String) :
    (scan t alg paths).records.Pairwise fun a b => recordLe a b := by
  rw [scan_records]
  exact List.pairwise_mergeSort recordLe_trans recordLe_total _

theorem scan_perm (t : Tree) (alg : HashAlg) (paths : List String) :
    (scan t alg paths).records.Perm (readableRecords t alg paths) := by
  rw [scan_records]
  exact List.mergeSort_perm _ _

-- The records of one gitoid are pairwise in order, so the stable sort keeps
-- them as a sublist; the sort moves none in or out, so that sublist is all of them.
theorem scan_stable (t : Tree) (alg : HashAlg) (paths : List String) (g : Gitoid) :
    (scan t alg paths).records.filter (·.gitoid = g) = (readableRecords t alg paths).filter (·.gitoid = g) := by
  have tied : ((readableRecords t alg paths).filter (·.gitoid = g)).Pairwise fun a b => recordLe a b := by
    apply List.pairwise_of_forall_mem_list
    intro a first b second
    have ga : a.gitoid = g := by simpa using (List.mem_filter.mp first).2
    have gb : b.gitoid = g := by simpa using (List.mem_filter.mp second).2
    simpa [recordLe, ga, gb] using Gitoid.le_total g g
  have kept : List.Sublist ((readableRecords t alg paths).filter (·.gitoid = g)) (scan t alg paths).records := by
    rw [scan_records]
    exact List.sublist_mergeSort recordLe_trans recordLe_total tied List.filter_sublist
  have within := kept.filter (fun r => decide (r.gitoid = g))
  simp only [List.filter_filter, Bool.and_self] at within
  exact (within.eq_of_length ((scan_perm t alg paths).filter _).length_eq.symm).symm

theorem zip_gitoids_paths (rs : List DepRecord) :
    (rs.map (·.gitoid)).zip (rs.map (·.path)) = rs.map fun r => (r.gitoid, r.path) := by
  induction rs with
  | nil => rfl
  | cons r rest ih => simp [ih]

theorem build_entries (t : Tree) (alg : HashAlg) (paths : List String) :
    ∃ d, build t alg paths = .ok (d, scan t alg paths) ∧ d.alg = alg ∧
      d.entries = (scan t alg paths).records.map (·.gitoid) := by
  refine ⟨_, build_eq paths, rfl, ?_⟩
  rw [scan_records, List.map_mergeSort (r := recordLe) (s := Gitoid.le) (fun _ _ _ _ => rfl),
    readableRecords_gitoids]
  rfl

-- Readable and unreadable paths split the list; the records are sorted stably
-- by gitoid; the document lists their gitoids in order, and the metadata
-- written from the records pairs each infile line with the entry at its place.
theorem scan_orders_as_document (t : Tree) (alg : HashAlg) (paths : List String) :
    let sc := scan t alg paths
    sc.skipped = paths.filter (fun p => !(t.readFile p).toBool) ∧
    sc.records.Perm (readableRecords t alg paths) ∧
    sc.records.Pairwise (fun a b => Gitoid.le a.gitoid b.gitoid) ∧
    (∀ g, sc.records.filter (·.gitoid = g) = (readableRecords t alg paths).filter (·.gitoid = g)) ∧
    sc.records.length + sc.skipped.length = paths.length ∧
    ∃ d, build t alg paths = .ok (d, sc) ∧ d.alg = alg ∧ d.entries = sc.records.map (·.gitoid) ∧
      ∀ (t' : Tree) (output : String) (cmd : Option String),
        renderMetadata t' output sc.records cmd =
          "outfile:  path: " ++ (outputShown t' output).getD notAvailable ++ "\n" ++
          String.join ((d.entries.zip (sc.records.map (·.path))).map fun (g, p) =>
            "infile: " ++ g.toHex ++ " path: " ++ inputShown t' p ++ "\n") ++
          "build_cmd: " ++ cmd.getD "" ++ "\n" := by
  dsimp only
  obtain ⟨d, built, alg_eq, entries⟩ := build_entries t alg paths
  refine ⟨scan_skipped t alg paths, scan_perm t alg paths, scan_ascending t alg paths, scan_stable t alg paths,
    ?_, d, built, alg_eq, entries, fun t' output cmd => ?_⟩
  · rw [scan_skipped, ← length_readableRecords t alg paths, ← (scan_perm t alg paths).length_eq]
  · rw [entries, zip_gitoids_paths, List.map_map]
    rfl

end Provenance.Store
