import Provenance.Proofs.GitoidOrder
import Provenance.Store.Scan
/-!
A document depends only on the multiset of its entries. Building from
gitoids of the document's algorithm always succeeds and sorts them; since
sorting identifies exactly the permutations of a list, every order of the
same entries, duplicates included, gives the same document, hence the same
text and gitoid. A list holding an entry of the other algorithm is refused,
and the refusal names that algorithm whichever such entry comes first. The
builder, which hashes files and builds from their gitoids, inherits this:
any order of the same paths over the same files gives the same document.
-/

namespace Provenance

theorem HashAlg.eq_of_ne_of_ne {a b c : HashAlg} (first : b ≠ a) (second : c ≠ a) : b = c := by
  cases a <;> cases b <;> cases c <;> simp_all

namespace Document

/-- What the document of some gitoids under an algorithm is: its entries are
the gitoids in ascending order, duplicates kept; its text is the header and
then one `blob <hex>` line per entry in that order; its gitoid is the blob
gitoid of that text. -/
structure Canonical (a : HashAlg) (gs : List Gitoid) (d : Document) : Prop where
  alg_eq : d.alg = a
  ascending : Ascending d.entries
  perm : d.entries.Perm gs
  text_eq : d.text = a.header ++ String.join (d.entries.map fun g => "blob " ++ g.toHex ++ "\n")
  gitoid_eq : d.gitoid = Gitoid.ofBlob a (Text.Utf8.encode d.text)

variable {a : HashAlg} {gs hs : List Gitoid}

theorem canonical_sortGitoids (a : HashAlg) (gs : List Gitoid) :
    Canonical a gs ⟨a, sortGitoids gs⟩ where
  alg_eq := rfl
  ascending := sortGitoids_ascending gs
  perm := sortGitoids_perm gs
  text_eq := rfl
  gitoid_eq := rfl

theorem ofGitoids_of_uniform (uniform : ∀ g ∈ gs, g.alg = a) :
    ofGitoids a gs = .ok ⟨a, sortGitoids gs⟩ := by
  have none : gs.find? (fun g => decide (g.alg ≠ a)) = none := by
    rw [List.find?_eq_none]
    intro g mem
    simp [uniform g mem]
  rw [ofGitoids, none]

-- Whatever entry of another algorithm the search meets first, there is only
-- one other algorithm, so the refusal is the same for each of them.
theorem ofGitoids_of_mismatch {g : Gitoid} (mem : g ∈ gs) (other : g.alg ≠ a) :
    ofGitoids a gs = .error (.algorithmMismatch a g.alg) := by
  cases found : gs.find? (fun g => decide (g.alg ≠ a)) with
  | none =>
    have := List.find?_eq_none.mp found g mem
    simp_all
  | some first =>
    have firstOther : first.alg ≠ a := by simpa using List.find?_some found
    rw [ofGitoids, found]
    simp only [HashAlg.eq_of_ne_of_ne firstOther other]

theorem ofGitoids_eq_ok_iff {d : Document} :
    ofGitoids a gs = .ok d ↔ (∀ g ∈ gs, g.alg = a) ∧ d = ⟨a, sortGitoids gs⟩ := by
  constructor
  · intro built
    by_cases uniform : ∀ g ∈ gs, g.alg = a
    · rw [ofGitoids_of_uniform uniform] at built
      exact ⟨uniform, (Except.ok.inj built).symm⟩
    · obtain ⟨g, mem, other⟩ : ∃ g ∈ gs, g.alg ≠ a := by simpa using uniform
      rw [ofGitoids_of_mismatch mem other] at built
      cases built
  · rintro ⟨uniform, rfl⟩
    exact ofGitoids_of_uniform uniform

theorem ofGitoids_perm (perm : gs.Perm hs) : ofGitoids a gs = ofGitoids a hs := by
  by_cases uniform : ∀ g ∈ gs, g.alg = a
  · have uniform' : ∀ g ∈ hs, g.alg = a := fun g mem => uniform g (perm.mem_iff.mpr mem)
    rw [ofGitoids_of_uniform uniform, ofGitoids_of_uniform uniform',
      sortGitoids_eq_iff_perm.mpr perm]
  · obtain ⟨g, mem, other⟩ : ∃ g ∈ gs, g.alg ≠ a := by simpa using uniform
    rw [ofGitoids_of_mismatch mem other, ofGitoids_of_mismatch (perm.mem_iff.mp mem) other]

end Document

namespace Store

open Files

variable {t : Tree} {alg : HashAlg}

theorem hashFile_alg {p : String} {g : Gitoid} (hashed : hashFile t alg p = .ok g) : g.alg = alg := by
  unfold hashFile at hashed
  cases read : t.readFile p with
  | error e => simp [read, Except.map] at hashed
  | ok bytes =>
    simp only [read, Except.map, Except.ok.injEq] at hashed
    rw [← hashed]
    rfl

def readableGitoids (t : Tree) (alg : HashAlg) (paths : List String) : List Gitoid :=
  paths.filterMap fun p => (hashFile t alg p).toOption

-- Any filter of the hashed paths that keeps a record exactly where the hash
-- succeeds keeps the readable gitoids, in path order.
theorem map_gitoid_filterMap {keep : String × Except OsError Gitoid → Option DepRecord}
    (kept : ∀ p r, (keep (p, r)).map (·.gitoid) = r.toOption) (paths : List String) :
    ((paths.map fun p => (p, hashFile t alg p)).filterMap keep).map (·.gitoid) = readableGitoids t alg paths := by
  induction paths with
  | nil => rfl
  | cons p rest ih =>
    have head := kept p (hashFile t alg p)
    simp only [List.map_cons, List.filterMap_cons, readableGitoids] at ih ⊢
    rw [← head]
    cases keep (p, hashFile t alg p) <;> simp only [Option.map_none, Option.map_some, List.map_cons, ih]

theorem scan_gitoids_perm (t : Tree) (alg : HashAlg) (paths : List String) :
    ((scan t alg paths).records.map (·.gitoid)).Perm (readableGitoids t alg paths) := by
  unfold scan
  refine ((List.mergeSort_perm _ _).map _).trans (List.Perm.of_eq (map_gitoid_filterMap ?_ paths))
  intro p r
  cases r <;> rfl

theorem readableGitoids_uniform {paths : List String} :
    ∀ g ∈ readableGitoids t alg paths, g.alg = alg := by
  intro g mem
  obtain ⟨p, -, found⟩ := List.mem_filterMap.mp mem
  cases hashed : hashFile t alg p with
  | error e => simp [hashed, Except.toOption] at found
  | ok h =>
    simp only [hashed, Except.toOption, Option.some.injEq] at found
    exact found ▸ hashFile_alg hashed

theorem build_eq (paths : List String) :
    build t alg paths = .ok (⟨alg, Document.sortGitoids (readableGitoids t alg paths)⟩,
      scan t alg paths) := by
  have perm := scan_gitoids_perm t alg paths
  have uniform : ∀ g ∈ (scan t alg paths).records.map (·.gitoid), g.alg = alg :=
    fun g mem => readableGitoids_uniform g (perm.mem_iff.mp mem)
  simp only [build, Document.ofGitoids_of_uniform uniform, Except.map,
    Document.sortGitoids_eq_iff_perm.mpr perm]

theorem readableGitoids_perm {paths paths' : List String} (perm : paths.Perm paths') :
    (readableGitoids t alg paths).Perm (readableGitoids t alg paths') :=
  perm.filterMap _

end Store

theorem document_determined_by_multiset (a : HashAlg) (gs : List Gitoid) :
    ((∀ g ∈ gs, g.alg = a) → ∃ d, Document.ofGitoids a gs = .ok d ∧ Document.Canonical a gs d) ∧
    (∀ p : List Gitoid, p.Perm gs → Document.ofGitoids a p = Document.ofGitoids a gs) ∧
    (∀ pre g post, gs = pre ++ g :: post → (∀ h ∈ pre, h.alg = a) → g.alg ≠ a →
      Document.ofGitoids a gs = .error (.algorithmMismatch a g.alg)) ∧
    (∀ (t : Files.Tree) (paths paths' : List String), paths.Perm paths' →
      ∃ d, (∃ sc, Store.build t a paths = .ok (d, sc)) ∧ (∃ sc, Store.build t a paths' = .ok (d, sc))) := by
  refine ⟨?uniform, ?reordered, ?mismatch, ?files⟩
  case uniform =>
    intro uniform
    exact ⟨_, Document.ofGitoids_of_uniform uniform, Document.canonical_sortGitoids a gs⟩
  case reordered =>
    intro p perm
    exact Document.ofGitoids_perm perm
  case mismatch =>
    rintro pre g post rfl - other
    exact Document.ofGitoids_of_mismatch (by simp) other
  case files =>
    intro t paths paths' perm
    have same : Document.sortGitoids (Store.readableGitoids t a paths) =
        Document.sortGitoids (Store.readableGitoids t a paths') :=
      Document.sortGitoids_eq_iff_perm.mpr (Store.readableGitoids_perm perm)
    refine ⟨_, ⟨_, Store.build_eq paths⟩, ⟨Store.scan t a paths', ?_⟩⟩
    rw [same]
    exact Store.build_eq paths'

theorem document_of_repeated_empty_blob :
    (∀ g ∈ [Gitoid.ofBlob .sha1 [], Gitoid.ofBlob .sha1 []], g.alg = .sha1) ∧
    ∃ d, Document.ofGitoids .sha1 [Gitoid.ofBlob .sha1 [], Gitoid.ofBlob .sha1 []] = .ok d ∧
      Document.Canonical .sha1 [Gitoid.ofBlob .sha1 [], Gitoid.ofBlob .sha1 []] d := by
  have uniform : ∀ g ∈ [Gitoid.ofBlob .sha1 [], Gitoid.ofBlob .sha1 []], g.alg = .sha1 := by
    simp [Gitoid.ofBlob]
  exact ⟨uniform, (document_determined_by_multiset .sha1 _).1 uniform⟩

end Provenance
