import Provenance.Proofs.StoreMirror
import Provenance.Proofs.DocumentParse
import Provenance.Proofs.Utf8RoundTrip
/-!
The disk store refines the memory store. In a well-formed tree where the
root's levels open, made where missing, and leave nothing named `objects`
below the root, documents written one after another are each stored under
their gitoid, and after the run the disk answers reads, membership tests and
checks as the memory store does after the same writes. Whether an objects
directory is there is asked once the levels are made: a root such as `a/..`
with `a` missing finds nothing before, yet once the first write makes `a` it
names the working directory, and there the disk store reads objects it never
wrote.
-/

namespace Provenance.Store

open Files

variable {t0 : Tree} {R : Loc} {b : Nat}

/-! Runs of writes. -/

def DiskStore.writeAll (s : DiskStore) (d : Disk) : List Document → Disk × List (Except StoreError Gitoid)
  | [] => (d, [])
  | doc :: docs =>
    let (d1, r) := s.write d doc
    let (d2, rs) := s.writeAll d1 docs
    (d2, r :: rs)

def MemoryStore.writeAll (m : MemoryStore) : List Document → MemoryStore
  | [] => m
  | doc :: docs => (m.write doc).1.writeAll docs

def Distinct (docs : List Document) : Prop :=
  ∀ d ∈ docs, ∀ d' ∈ docs, d.gitoid = d'.gitoid → d.text = d'.text

theorem Distinct.tail {doc : Document} {docs : List Document} (distinct : Distinct (doc :: docs)) : Distinct docs :=
  fun d mem d' mem' => distinct d (List.mem_cons_of_mem _ mem) d' (List.mem_cons_of_mem _ mem')

def Consistent (m : MemoryStore) (docs : List Document) : Prop :=
  ∀ doc ∈ docs, ∀ bytes, m.read doc.gitoid = some bytes → bytes = Text.Utf8.encode doc.text

theorem Consistent.empty (docs : List Document) : Consistent {} docs := by
  intro doc _ bytes stored
  simp [MemoryStore.read] at stored

theorem Consistent.write {m : MemoryStore} {doc : Document} {docs : List Document}
    (consistent : Consistent m (doc :: docs)) (distinct : Distinct (doc :: docs)) :
    Consistent (m.write doc).1 docs := by
  intro d mem bytes stored
  rw [MemoryStore.read_write] at stored
  cases held : m.read d.gitoid with
  | some old =>
    rw [held, Option.some_or, Option.some.injEq] at stored
    subst stored
    exact consistent d (List.mem_cons_of_mem _ mem) old held
  | none =>
    -- Only this write can have put something there, and its text is the same.
    rw [held, Option.none_or] at stored
    by_cases same : d.gitoid = doc.gitoid
    · rw [if_pos same, Option.some.injEq] at stored
      rw [← stored, distinct doc List.mem_cons_self d (List.mem_cons_of_mem _ mem) same.symm]
    · rw [if_neg same] at stored
      cases stored

theorem MemoryStore.read_writeAll_of_some {m : MemoryStore} {id : Gitoid} {bytes : List UInt8}
    (stored : m.read id = some bytes) (docs : List Document) : (m.writeAll docs).read id = some bytes := by
  induction docs generalizing m with
  | nil => exact stored
  | cons doc rest ih => exact ih (by rw [read_write, stored, Option.some_or])

theorem MemoryStore.read_writeAll {m : MemoryStore} {docs : List Document} (consistent : Consistent m docs)
    (distinct : Distinct docs) : ∀ doc ∈ docs, (m.writeAll docs).read doc.gitoid = some (Text.Utf8.encode doc.text) := by
  induction docs generalizing m with
  | nil => simp
  | cons d rest ih =>
    intro doc mem
    rcases List.mem_cons.mp mem with rfl | inRest
    · show ((m.write doc).1.writeAll rest).read doc.gitoid = _
      apply read_writeAll_of_some
      rw [read_write]
      cases held : m.read doc.gitoid with
      | some old => rw [consistent doc mem old held, Option.some_or]
      | none => simp
    · exact ih (consistent.write distinct) distinct.tail doc inRest

theorem MemoryStore.contains_writeAll (m : MemoryStore) (docs : List Document) (id : Gitoid) :
    (m.writeAll docs).contains id = true ↔ m.contains id = true ∨ ∃ doc ∈ docs, doc.gitoid = id := by
  induction docs generalizing m with
  | nil => simp [writeAll]
  | cons doc rest ih =>
    rw [writeAll, ih, contains_write]
    by_cases same : id = doc.gitoid
    · subst same
      simp
    · simp [same, Ne.symm same]

theorem MemoryStore.verify_of_read {m : MemoryStore} {doc : Document}
    (stored : m.read doc.gitoid = some (Text.Utf8.encode doc.text))
    (canonical : Document.ofGitoids doc.alg doc.entries = .ok doc) : m.verify doc.gitoid = .ok doc := by
  obtain ⟨uniform, sorted⟩ := Document.ofGitoids_self_iff.mp canonical
  have same : Gitoid.ofBlob doc.gitoid.alg (Text.Utf8.encode doc.text) = doc.gitoid := rfl
  simp [MemoryStore.verify, verifyBytes, stored, same, Document.parse_text uniform sorted]

theorem DiskStore.writeAll_mirrors {s : DiskStore} (wf : t0.WellFormed) (fresh : FreshRoot t0 s.root R b) :
    ∀ (docs : List Document) (m : MemoryStore) (t : Tree) (h : Handles), Mirrors t0 R (objectsView m) t →
      Consistent m docs → Distinct docs →
      (s.writeAll ⟨t, h⟩ docs).2 = docs.map (fun doc => .ok doc.gitoid) ∧
        Mirrors t0 R (objectsView (m.writeAll docs)) (s.writeAll ⟨t, h⟩ docs).1.tree := by
  intro docs
  induction docs with
  | nil => exact fun m t h mirrors _ _ => ⟨rfl, mirrors⟩
  | cons doc rest ih =>
    intro m t h mirrors consistent distinct
    obtain ⟨written, mirrors'⟩ := DiskStore.write_mirrors fresh (fresh.enters_rootLevels wf mirrors) mirrors doc
      (consistent doc List.mem_cons_self) h
    obtain ⟨results, final⟩ := ih _ _ (s.write ⟨t, h⟩ doc).1.handles mirrors' (consistent.write distinct)
      distinct.tail
    simp only [DiskStore.writeAll, MemoryStore.writeAll, List.map_cons]
    exact ⟨by rw [written, results], final⟩

theorem DiskStore.writeAll_refines {t1 : Tree} {s : DiskStore} (wf : t1.WellFormed) (fresh : FreshRoot t1 s.root R b)
    (entered : EntersAll t0 (rootLevels s.root) t1) (docs : List Document) (h : Handles) (distinct : Distinct docs) :
    (s.writeAll ⟨t0, h⟩ docs).2 = docs.map (fun doc => .ok doc.gitoid) ∧
      ∀ id, s.read (s.writeAll ⟨t0, h⟩ docs).1.tree id = .ok ((MemoryStore.writeAll {} docs).read id) ∧
        s.contains (s.writeAll ⟨t0, h⟩ docs).1.tree id = (MemoryStore.writeAll {} docs).contains id ∧
        s.verify (s.writeAll ⟨t0, h⟩ docs).1.tree id = (MemoryStore.writeAll {} docs).verify id := by
  cases docs with
  | nil => exact ⟨rfl, fresh.read_of_keeps entered.keeps entered.cwd_eq.symm⟩
  | cons doc rest =>
    -- The first write makes the root's levels; the later ones find them made.
    obtain ⟨written, mirrors⟩ := DiskStore.write_mirrors fresh entered fresh.mirrors_empty doc
      (fun bytes stored => by simp [MemoryStore.read] at stored) h
    obtain ⟨results, final⟩ := DiskStore.writeAll_mirrors wf fresh rest _ _ (s.write ⟨t0, h⟩ doc).1.handles mirrors
      ((Consistent.empty (doc :: rest)).write distinct) distinct.tail
    simp only [DiskStore.writeAll, MemoryStore.writeAll, List.map_cons]
    exact ⟨by rw [written, results], fun id => fresh.read_mirrors final id⟩

/-! Metadata. -/

theorem withLevels_ok {α : Type} {d : Disk} {ls : List Level} {leaf : Disk → String → Disk × Except StoreError α}
    {x : α} (done : (withLevels d ls leaf).2 = .ok x) : ∃ d1, (leaf d1 (lastPath ls)).2 = .ok x := by
  simp only [withLevels] at done
  generalize enterAll d ls = walked at done
  obtain ⟨d1, n, r⟩ := walked
  cases r with
  | error e => cases done
  | ok u => exact ⟨d1, done⟩

theorem recordMetadata_path {d : Disk} {root : String} {alg : HashAlg} {ctx : BuildContext}
    {primaryInput : Option String} {records : List DepRecord} {path : String}
    (recorded : (recordMetadata d root alg ctx primaryInput records).2 = .ok (some path)) :
    ∃ output name, ctx.resolveOutput primaryInput = some output ∧ fileName output = some name ∧
      path = join (lastPath (levels root [metadataDir, producerDir, alg.storeNamespace])) (name ++ ".metadata") := by
  unfold recordMetadata at recorded
  cases resolved : ctx.resolveOutput primaryInput with
  | none => simp [resolved] at recorded
  | some output =>
    cases named : fileName output with
    | none => simp [resolved, metadataFileName, named] at recorded
    | some name =>
      simp only [resolved, metadataFileName, named] at recorded
      obtain ⟨d1, leafDone⟩ := withLevels_ok recorded
      refine ⟨output, name, rfl, named, ?_⟩
      revert leafDone
      split
      · simp only [Except.ok.injEq, Option.some.injEq]
        exact Eq.symm
      · simp

/-! A root through a directory the first write makes. -/

section ParentRoot

theorem empty_root_write (doc : Document) :
    (DiskStore.write ⟨""⟩ ⟨{}, {}⟩ doc).2 = .ok doc.gitoid ∧
      Mirrors {} [] (objectsView (({} : MemoryStore).write doc).1) (DiskStore.write ⟨""⟩ ⟨{}, {}⟩ doc).1.tree := by
  have wf : ({} : Tree).WellFormed :=
    ⟨⟨_, Tree.get?_nil _⟩, fun loc x n held => by simp [Tree.get?] at held⟩
  have fresh : FreshRoot {} "" [] linkBudget := by
    refine ⟨by simp [show walkNames "" = [] by decide, Tree.walkDir], fun sub => ?_⟩
    simp [Tree.get?, below]
  exact DiskStore.write_mirrors fresh (fresh.enters_rootLevels wf fresh.mirrors_empty) fresh.mirrors_empty doc
    (by simp [MemoryStore.read]) {}

theorem plain_a : Plain "a" := ⟨by decide, by decide, by decide, by decide⟩

variable {u : Tree}

-- Both paths are relative, so with the working directory at the top they start there.
theorem start_of_relative (cwd : u.cwd = []) {P : String} (relative : isAbsolute P = false) :
    (if isAbsolute P then [] else u.cwd) = [] := by
  rw [relative, if_neg Bool.false_ne_true, cwd]

-- With the working directory at the top and `a` a directory there, `a` walks
-- into it and `a/..` into it and back.
theorem walkDir_a (cwd : u.cwd = []) (isA : u.get? ["a"] = some (.dir dirMode)) :
    u.walkDir linkBudget (if isAbsolute "a" then [] else u.cwd) (walkNames "a") = .ok (["a"], linkBudget) := by
  rw [start_of_relative cwd (by decide), show walkNames "a" = ["a"] by decide,
    Tree.walkDir_cons_dir plain_a (by simpa using isA)]
  simp [Tree.walkDir]

theorem walkDir_a_up (cwd : u.cwd = []) (isA : u.get? ["a"] = some (.dir dirMode)) :
    u.walkDir linkBudget (if isAbsolute "a/.." then [] else u.cwd) (walkNames "a/..") = .ok ([], linkBudget) := by
  rw [start_of_relative cwd (by decide), show walkNames "a/.." = ["a", ".."] by decide,
    Tree.walkDir_cons_dir plain_a (by simpa using isA)]
  simp [Tree.walkDir]

theorem get?_put_a (u : Tree) (loc : Loc) :
    (u.put ["a"] (.dir dirMode)).get? loc = if loc = ["a"] then some (.dir dirMode) else u.get? loc :=
  Tree.get?_put u _ (by simp) loc

-- Once `a` is made, `a/..` is a fresh root at the top.
theorem freshRoot_a_up : FreshRoot (({} : Tree).put ["a"] (.dir dirMode)) "a/.." [] linkBudget := by
  refine ⟨walkDir_a_up rfl (by rw [get?_put_a, if_pos rfl]), fun sub => ?_⟩
  rw [get?_put_a, if_neg (by simp [below, objectsDir])]
  simp [Tree.get?, below_ne_nil]

variable {t : Tree} {m : MemoryStore} (mirrors : Mirrors {} [] (objectsView m) t)
include mirrors

-- The working directory is the top and nothing named `a` is in it.
theorem Mirrors.no_a : t.get? ["a"] = none := by
  rw [mirrors.outside ["a"] (by simp [below, objectsDir])]
  simp [Tree.get?]

theorem Mirrors.parent_root_missing :
    t.lookup (join "a/.." objectsDir) false = .error .notFound ∧
      ∀ id, (⟨"a/.."⟩ : DiskStore).read t id = .ok none := by
  have start : (if isAbsolute "a/.." then [] else t.cwd) = [] := start_of_relative mirrors.cwd (by decide)
  -- Every walk through `a` and on stops at `a`.
  have stops : ∀ follow (names : List String), (∀ p ∈ names, Plain p) → names ≠ [] →
      t.lookup (joinAll "a/.." names) follow = .error .notFound := by
    intro follow names plain nonempty
    rw [lookup_joinAll t follow "a/.." plain nonempty, start, show walkNames "a/.." = ["a", ".."] by decide,
      List.cons_append, Tree.walk_cons_none plain_a (by simpa using mirrors.no_a)]
    simp
  refine ⟨stops false [objectsDir] (by simp [plain_objectsDir]) (by simp), fun id => ?_⟩
  have notFound := stops true _ (plain_objectPath id) (by simp)
  simp [DiskStore.read, Tree.readFile, objectPath_eq, notFound]

-- The root's levels: `a`, made as it is missing, then `a/..`, which opens.
theorem Mirrors.enters_a_up : EntersAll t (rootLevels "a/..") (t.put ["a"] (.dir dirMode)) := by
  have cwd : (t.put ["a"] (.dir dirMode)).cwd = [] := mirrors.cwd
  have isA : (t.put ["a"] (.dir dirMode)).get? ["a"] = some (.dir dirMode) := by
    rw [get?_put_a, if_pos rfl]
  have missing : t.lookup "a" false = .ok (.absent ["a"]) := by
    rw [Tree.lookup_eq_walk t (by decide) false (by decide), start_of_relative mirrors.cwd (by decide),
      show walkNames "a" = ["a"] by decide]
    exact Tree.walk_single_none plain_a (by simpa using mirrors.no_a)
  rw [show rootLevels "a/.." = [("a", true), ("a/..", false)] by decide]
  exact .cons (enters_of_absent missing (Tree.openDir_of_walkDir (by decide) (walkDir_a cwd isA) isA))
    (.cons (enters_of_openDir (Tree.openDir_of_walkDir (by decide) (walkDir_a_up cwd isA) (Tree.get?_nil _)) false)
      (.nil _))

theorem Mirrors.parent_root_write (doc : Document)
    (consistent : ∀ bytes, m.read doc.gitoid = some bytes → bytes = Text.Utf8.encode doc.text) (h : Handles) :
    ((⟨"a/.."⟩ : DiskStore).write ⟨t, h⟩ doc).2 = .ok doc.gitoid ∧
      ∀ id, (⟨"a/.."⟩ : DiskStore).read ((⟨"a/.."⟩ : DiskStore).write ⟨t, h⟩ doc).1.tree id =
        .ok ((m.write doc).1.read id) := by
  obtain ⟨written, mirrors'⟩ := DiskStore.write_mirrors (s := ⟨"a/.."⟩) freshRoot_a_up mirrors.enters_a_up
    (mirrors.put_outside (by simp) (by simp [below, objectsDir]) _) doc consistent h
  exact ⟨written, fun id => (freshRoot_a_up.read_mirrors mirrors' id).1⟩

end ParentRoot

end Provenance.Store

namespace Provenance

open Files Store

theorem disk_store_refines_memory_store (s : DiskStore) (t0 : Tree) (h : Handles) (docs : List Document)
    (wf : t0.WellFormed) (opens : (enterAll ⟨t0, h⟩ (rootLevels s.root)).2.2 = .ok ())
    (noObjects : ∃ O, (enterAll ⟨t0, h⟩ (rootLevels s.root)).1.tree.lookup (join s.root objectsDir) false =
      .ok (.absent O))
    (distinct : ∀ d ∈ docs, ∀ d' ∈ docs, d.gitoid = d'.gitoid → d.text = d'.text)
    (canonical : ∀ d ∈ docs, Document.ofGitoids d.alg d.entries = .ok d) :
    let disk := (s.writeAll ⟨t0, h⟩ docs).1.tree
    let mem := MemoryStore.writeAll {} docs
    (s.writeAll ⟨t0, h⟩ docs).2 = docs.map (fun doc => .ok doc.gitoid) ∧
    (∀ id, s.read disk id = .ok (mem.read id) ∧ s.contains disk id = mem.contains id ∧
      s.verify disk id = mem.verify id) ∧
    (∀ doc ∈ docs, mem.read doc.gitoid = some (Text.Utf8.encode doc.text) ∧ mem.verify doc.gitoid = .ok doc) ∧
    (∀ id, mem.contains id = true ↔ ∃ doc ∈ docs, doc.gitoid = id) ∧
    (∀ id (t : Tree), (∀ follow, t.lookup (objectLeaf s id) follow = t.lookup (s.objectPath id) follow) ∧
      ∀ budget cur, t.createAt budget cur (objectLeaf s id) = t.createAt budget cur (s.objectPath id)) ∧
    (∀ d root alg ctx primaryInput records path,
      (recordMetadata d root alg ctx primaryInput records).2 = .ok (some path) →
      ∃ output P, ctx.resolveOutput primaryInput = some output ∧ metadataPath root alg output = .ok P ∧
        ∀ t : Tree, (∀ follow, t.lookup path follow = t.lookup P follow) ∧
          ∀ budget cur, t.createAt budget cur path = t.createAt budget cur P) := by
  obtain ⟨O, absent⟩ := noObjects
  -- The first write opens the root's levels, making those that are missing.
  have entered := entersAll_of_enterAll opens
  have wf1 := entered.wellFormed wf
  obtain ⟨R, b, walked⟩ := entered.root_walks
  have fresh := freshRoot_of_walkDir wf1 walked absent
  obtain ⟨results, reads⟩ := DiskStore.writeAll_refines wf1 fresh entered docs h distinct
  have stored := MemoryStore.read_writeAll (Consistent.empty docs) distinct
  refine ⟨results, reads,
    fun doc mem => ⟨stored doc mem, MemoryStore.verify_of_read (stored doc mem) (canonical doc mem)⟩,
    fun id => ?_, fun id t => ⟨objectLeaf_lookup s id t, objectLeaf_createAt s id t⟩, ?_⟩
  · rw [MemoryStore.contains_writeAll]
    simp [MemoryStore.contains]
  · intro d root alg ctx primaryInput records path recorded
    obtain ⟨output, name, resolved, named, rfl⟩ := recordMetadata_path recorded
    exact ⟨output, _, resolved, metadataPath_eq root alg named,
      fun t => ⟨leaf_lookup root (plain_metadataPath alg named) t, leaf_createAt root (plain_metadataPath alg named) t⟩⟩

theorem refinement_below_root_made_by_first_write :
    ({} : Tree).WellFormed ∧ (enterAll ⟨{}, {}⟩ (rootLevels "a/../b")).2.2 = .ok () ∧
      (∃ O, (enterAll ⟨{}, {}⟩ (rootLevels "a/../b")).1.tree.lookup (join "a/../b" objectsDir) false =
        .ok (.absent O)) ∧
      (∀ d ∈ [(⟨.sha1, []⟩ : Document), ⟨.sha256, []⟩], ∀ d' ∈ [(⟨.sha1, []⟩ : Document), ⟨.sha256, []⟩],
        d.gitoid = d'.gitoid → d.text = d'.text) ∧
      (∀ d ∈ [(⟨.sha1, []⟩ : Document), ⟨.sha256, []⟩], Document.ofGitoids d.alg d.entries = .ok d) ∧
      ((⟨"a/../b"⟩ : DiskStore).writeAll ⟨{}, {}⟩ [(⟨.sha1, []⟩ : Document), ⟨.sha256, []⟩]).2 =
        [.ok (⟨.sha1, []⟩ : Document).gitoid, .ok (⟨.sha256, []⟩ : Document).gitoid] := by
  have wf : ({} : Tree).WellFormed :=
    ⟨⟨_, Tree.get?_nil _⟩, fun loc x n held => by simp [Tree.get?] at held⟩
  -- Opening the root makes `a`, walks back up, and makes `b`, which holds nothing.
  have opened : (enterAll ⟨{}, {}⟩ (rootLevels "a/../b")).2.2 = .ok () ∧
      ∃ O, (enterAll ⟨{}, {}⟩ (rootLevels "a/../b")).1.tree.lookup (join "a/../b" objectsDir) false =
        .ok (.absent O) := by
    rw [show rootLevels "a/../b" = [("a", true), ("a/..", false), ("a/../b", true)] by decide,
      show join "a/../b" objectsDir = "a/../b/objects" by decide]
    simp [enterAll, enter, Tree.openDir, Tree.lookup, Tree.mkdir, Tree.walk, Tree.put, Tree.get?,
      show walkPieces "a" = ["a"] by decide, show walkPieces "a/.." = ["a", ".."] by decide,
      show walkPieces "a/../b" = ["a", "..", "b"] by decide,
      show walkPieces "a/../b/objects" = ["a", "..", "b", "objects"] by decide,
      show isAbsolute "a" = false by decide, show isAbsolute "a/.." = false by decide,
      show isAbsolute "a/../b" = false by decide, show isAbsolute "a/../b/objects" = false by decide]
  -- The two documents have gitoids of different algorithms.
  have distinct : ∀ d ∈ [(⟨.sha1, []⟩ : Document), ⟨.sha256, []⟩], ∀ d' ∈ [(⟨.sha1, []⟩ : Document), ⟨.sha256, []⟩],
      d.gitoid = d'.gitoid → d.text = d'.text := by
    intro d mem d' mem' same
    have algs := congrArg Gitoid.alg same
    simp only [List.mem_cons, List.not_mem_nil, or_false] at mem mem'
    rcases mem with rfl | rfl <;> rcases mem' with rfl | rfl <;> first | rfl | cases algs
  have canonical : ∀ d ∈ [(⟨.sha1, []⟩ : Document), ⟨.sha256, []⟩], Document.ofGitoids d.alg d.entries = .ok d := by
    simp [Document.ofGitoids, Document.sortGitoids]
  exact ⟨wf, opened.1, opened.2, distinct, canonical,
    (disk_store_refines_memory_store ⟨"a/../b"⟩ _ {} _ wf opened.1 opened.2 distinct canonical).1⟩

-- A root through a directory that the first write makes: `a/..` leads nowhere while `a` is missing,
-- so nothing named `objects` is below it and an object of the working directory's store reads as
-- absent; the write makes `a`, after which `a/..` is the working directory and that object, never
-- written through this root, reads back.
theorem parent_root_reads_object_it_never_wrote :
    let early : Document := ⟨.sha1, []⟩
    let late : Document := ⟨.sha256, []⟩
    let s : DiskStore := ⟨"a/.."⟩
    let t := (DiskStore.write ⟨""⟩ ⟨{}, {}⟩ early).1.tree
    t.lookup (join s.root objectsDir) false = .error .notFound ∧
      s.read t early.gitoid = .ok none ∧
      (s.write ⟨t, {}⟩ late).2 = .ok late.gitoid ∧
      s.read (s.write ⟨t, {}⟩ late).1.tree early.gitoid = .ok (some (Text.Utf8.encode early.text)) ∧
      (({} : MemoryStore).write late).1.read early.gitoid = none := by
  intro early late s t
  obtain ⟨-, mirrors⟩ := empty_root_write early
  have apart : early.gitoid ≠ late.gitoid := fun same => absurd (congrArg Gitoid.alg same) (by decide)
  obtain ⟨noObjects, absent⟩ := mirrors.parent_root_missing
  have unstored : ∀ bytes, (({} : MemoryStore).write early).1.read late.gitoid = some bytes →
      bytes = Text.Utf8.encode late.text := by
    intro bytes held
    rw [MemoryStore.read_write] at held
    simp [MemoryStore.read, Ne.symm apart] at held
  obtain ⟨written, reads⟩ := mirrors.parent_root_write late unstored {}
  refine ⟨noObjects, absent early.gitoid, written, ?_, ?_⟩
  · rw [reads, MemoryStore.read_write, MemoryStore.read_write]
    simp [MemoryStore.read]
  · rw [MemoryStore.read_write]
    simp [MemoryStore.read, apart]

end Provenance
