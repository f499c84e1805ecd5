import Provenance.Proofs.StoreLevels
import Mathlib.Logic.Function.Basic
/-!
A disk that holds a memory store's objects. Below the objects directory of a
root, the objects of a memory store look like files at their names with
directories above them (`objectsView`); a tree mirrors a memory store when it
holds that view there and agrees with a base tree everywhere else. A root is
fresh when it names a directory of the base tree with nothing at or below its
`objects`. Below a fresh root whose levels open, one write of the disk store
succeeds with the document's gitoid and leaves a tree that mirrors the memory
store's write of it, and the disk store's reads, membership tests and checks
give the memory store's answers.
-/

namespace Provenance.Store

open Files

namespace MemoryStore

theorem contains_eq_isSome (m : MemoryStore) (id : Gitoid) : m.contains id = (m.read id).isSome := by
  rw [Bool.eq_iff_iff]
  simp [contains, read, List.any_eq_true]

-- A write adds the document's text under its gitoid unless something is there.
theorem read_write (m : MemoryStore) (doc : Document) (id : Gitoid) :
    (m.write doc).1.read id = (m.read id).or (if id = doc.gitoid then some (Text.Utf8.encode doc.text) else none) := by
  unfold write
  by_cases stored : m.contains doc.gitoid
  · rw [if_pos stored]
    by_cases same : id = doc.gitoid
    · rw [contains_eq_isSome, same] at *
      obtain ⟨bytes, found⟩ := Option.isSome_iff_exists.mp stored
      simp [found]
    · simp [same]
  · rw [if_neg stored]
    simp only [read, List.find?_append, List.find?_cons, List.find?_nil, Option.map_or]
    by_cases same : id = doc.gitoid
    · subst same
      rw [contains_eq_isSome] at stored
      simp_all [read]
    · simp [same, Ne.symm same]

theorem contains_write (m : MemoryStore) (doc : Document) (id : Gitoid) :
    (m.write doc).1.contains id = (m.contains id || decide (id = doc.gitoid)) := by
  rw [contains_eq_isSome, contains_eq_isSome, read_write]
  cases m.read id <;> by_cases same : id = doc.gitoid <;> simp [same]

end MemoryStore

/-! The objects of a memory store laid out as files. -/

/-- What the objects of a memory store look like below an objects directory:
each object's bytes in a file at its names, directories above them, nothing
elsewhere. -/
def objectsView (m : MemoryStore) (sub : List String) : Option Node :=
  match m.objects.find? (fun e => objectNames e.1 = sub) with
  | some e => some (.file e.2)
  | none => if m.objects.any (fun e => sub.isPrefixOf (objectNames e.1)) then some (.dir dirMode) else none

theorem length_objectNames (id : Gitoid) : (objectNames id).length = 3 := rfl

-- Above the files there are only directories, or nothing.
theorem objectsView_of_length_lt (m : MemoryStore) {sub : List String} (short : sub.length < 3) :
    objectsView m sub =
      if m.objects.any (fun e => sub.isPrefixOf (objectNames e.1)) then some (.dir dirMode) else none := by
  have unnamed : m.objects.find? (fun e => objectNames e.1 = sub) = none := by
    refine List.find?_eq_none.mpr fun e _ same => ?_
    have lengths := congrArg List.length (of_decide_eq_true same)
    rw [length_objectNames] at lengths
    omega
  simp only [objectsView, unnamed]

theorem objectsView_above (m : MemoryStore) (sub : List String) (short : sub.length < 3) :
    objectsView m sub = none ∨ objectsView m sub = some (.dir dirMode) := by
  rw [objectsView_of_length_lt m short]
  split
  · exact .inr rfl
  · exact .inl rfl

-- Distinct objects have distinct names, so the file at an object's names
-- holds that object's bytes.
theorem objectsView_objectNames (m : MemoryStore) (id : Gitoid) :
    objectsView m (objectNames id) = (m.read id).map .file := by
  have same : (fun e : Gitoid × List UInt8 => decide (objectNames e.1 = objectNames id)) =
      fun e => decide (e.1 = id) := by
    funext e
    simp only [decide_eq_decide]
    exact ⟨objectNames_injective, fun eq => eq ▸ rfl⟩
  unfold objectsView MemoryStore.read
  rw [same]
  cases found : m.objects.find? (·.1 = id) with
  | some e => simp
  | none =>
    -- No other object's names start with all three of these.
    have noPrefix : m.objects.any (fun e => (objectNames id).isPrefixOf (objectNames e.1)) = false := by
      rw [List.any_eq_false]
      intro e mem pre
      have eq : objectNames id = objectNames e.1 :=
        (List.isPrefixOf_iff_prefix.mp pre).eq_of_length (by rw [length_objectNames, length_objectNames])
      rw [List.find?_eq_none] at found
      exact found e mem (by simpa using (objectNames_injective eq).symm)
    simp [noPrefix]

theorem objectsView_empty (sub : List String) : objectsView {} sub = none := by
  simp [objectsView]

-- Writing adds the document's file and the directories above it, and leaves
-- everything else; the file holds the text already stored under that gitoid,
-- which is the document's own.
theorem objectsView_write (m : MemoryStore) (doc : Document)
    (consistent : ∀ bytes, m.read doc.gitoid = some bytes → bytes = Text.Utf8.encode doc.text) (sub : List String) :
    objectsView (m.write doc).1 sub =
      if sub = objectNames doc.gitoid then some (.file (Text.Utf8.encode doc.text))
      else if sub <+: objectNames doc.gitoid then some (.dir dirMode) else objectsView m sub := by
  by_cases named : sub = objectNames doc.gitoid
  · rw [if_pos named, named, objectsView_objectNames, MemoryStore.read_write]
    cases stored : m.read doc.gitoid with
    | none => simp
    | some bytes => simp [consistent bytes stored]
  rw [if_neg named]
  by_cases above : sub <+: objectNames doc.gitoid
  · rw [if_pos above]
    have short : sub.length < 3 := by
      have bound := above.length_le
      rw [length_objectNames] at bound
      rcases Nat.lt_or_eq_of_le bound with lt | eq
      · exact lt
      · exact absurd (above.eq_of_length (by rw [eq, length_objectNames])) named
    rw [objectsView_of_length_lt _ short, if_pos]
    -- The written object is stored, and its names start with `sub`.
    have stored := MemoryStore.contains_write m doc doc.gitoid
    simp only [decide_true, Bool.or_true, MemoryStore.contains, List.any_eq_true, decide_eq_true_eq] at stored
    obtain ⟨e, mem, same⟩ := stored
    exact List.any_eq_true.mpr ⟨e, mem, by rw [same]; exact List.isPrefixOf_iff_prefix.mpr above⟩
  · rw [if_neg above]
    unfold MemoryStore.write
    dsimp only
    by_cases stored : m.contains doc.gitoid
    · rw [if_pos stored]
    · rw [if_neg stored]
      have anyAbove : ((m.objects ++ [(doc.gitoid, Text.Utf8.encode doc.text)]).any
          fun e => sub.isPrefixOf (objectNames e.1)) = m.objects.any fun e => sub.isPrefixOf (objectNames e.1) := by
        rw [List.any_append]
        simp [List.isPrefixOf_iff_prefix, above]
      simp only [objectsView, List.find?_append, anyAbove]
      simp [Ne.symm named]

/-! A disk tree that holds a memory store's objects. -/

/-- The place of `sub` below the objects directory of a store whose root is
the directory `R`. -/
def below (R : Loc) (sub : List String) : Loc := R ++ objectsDir :: sub

theorem below_append (R : Loc) (sub : List String) (x : String) : below R sub ++ [x] = below R (sub ++ [x]) := by
  simp [below]

theorem below_ne_nil (R : Loc) (sub : List String) : below R sub ≠ [] := by
  simp [below]

theorem below_prefix (R : Loc) (sub : List String) : below R [] <+: below R sub :=
  ⟨sub, by simp [below]⟩

/-- A tree that is `t0` everywhere but at and below the objects directory of
the root `R`, where it holds what the view `v` gives. -/
structure Mirrors (t0 : Tree) (R : Loc) (v : List String → Option Node) (t : Tree) : Prop where
  cwd : t.cwd = t0.cwd
  outside : ∀ loc, ¬ below R [] <+: loc → t.get? loc = t0.get? loc
  inside : ∀ sub, t.get? (below R sub) = v sub

variable {t0 t : Tree} {R : Loc} {v : List String → Option Node}

theorem Mirrors.put (mirrors : Mirrors t0 R v t) (sub : List String) (n : Node) :
    Mirrors t0 R (Function.update v sub (some n)) (t.put (below R sub) n) where
  cwd := mirrors.cwd
  outside loc away := by
    have elsewhere : loc ≠ below R sub := fun same => away (same ▸ below_prefix R sub)
    rw [Tree.get?_put _ _ (below_ne_nil R sub), if_neg elsewhere, mirrors.outside loc away]
  inside sub' := by
    rw [Tree.get?_put _ _ (below_ne_nil R sub)]
    by_cases same : sub' = sub
    · subst same
      simp
    · have elsewhere : below R sub' ≠ below R sub := by simpa [below] using same
      rw [if_neg elsewhere, mirrors.inside, Function.update_of_ne same]

/-- The root names the directory `R` of `t0`, reached with `b` links to spare,
and nothing is at or below `R/objects`. -/
structure FreshRoot (t0 : Tree) (root : String) (R : Loc) (b : Nat) : Prop where
  walked : t0.walkDir linkBudget (if isAbsolute root then [] else t0.cwd) (walkNames root) = .ok (R, b)
  empty : ∀ sub, t0.get? (below R sub) = none

variable {root : String} {b : Nat}

theorem FreshRoot.mirrors_empty (fresh : FreshRoot t0 root R b) : Mirrors t0 R (objectsView {}) t0 where
  cwd := rfl
  outside _ _ := rfl
  inside sub := by rw [fresh.empty, objectsView_empty]

-- What `t0` holds lies outside the objects directory, so a mirroring tree keeps it.
theorem FreshRoot.keeps (fresh : FreshRoot t0 root R b) (mirrors : Mirrors t0 R v t) :
    ∀ loc n, t0.get? loc = some n → t.get? loc = some n := by
  intro loc n held
  by_cases inside : below R [] <+: loc
  · obtain ⟨sub, rfl⟩ := inside
    have nothing := fresh.empty sub
    rw [show below R [] ++ sub = below R sub by simp [below]] at held
    rw [nothing] at held
    cases held
  · rw [mirrors.outside loc inside]
    exact held

theorem FreshRoot.walked_in (fresh : FreshRoot t0 root R b) (mirrors : Mirrors t0 R v t) :
    t.walkDir linkBudget (if isAbsolute root then [] else t.cwd) (walkNames root) = .ok (R, b) := by
  rw [mirrors.cwd]
  exact Tree.walkDir_mono (fresh.keeps mirrors) fresh.walked

theorem FreshRoot.lookup_objects (fresh : FreshRoot t0 root R b) (mirrors : Mirrors t0 R v t) {B : String}
    (sameNames : walkNames B = walkNames root) (sameStart : isAbsolute B = isAbsolute root) {sub : List String}
    (plain : ∀ p ∈ sub, Plain p) (follow : Bool) :
    t.lookup (joinAll B (objectsDir :: sub)) follow = t.walk follow b R (objectsDir :: sub) := by
  have plainAll : ∀ p ∈ objectsDir :: sub, Plain p := by
    intro p mem
    rcases List.mem_cons.mp mem with rfl | inSub
    · exact plain_objectsDir
    · exact plain p inSub
  rw [lookup_joinAll t follow B plainAll (by simp), sameNames, sameStart,
    Tree.walk_append t follow _ _ _ _ (by simp), fresh.walked_in mirrors]
  rfl

/-! Walking below the objects directory. -/

section Walk

variable (mirrors : Mirrors t0 R v t) {follow : Bool} {budget : Nat}
include mirrors

theorem Mirrors.walk_enter {m : Nat} (isDir : v [] = some (.dir m)) (rest : List String) :
    t.walk follow budget R (objectsDir :: rest) = t.walk follow budget (below R []) rest :=
  Tree.walk_cons_dir plain_objectsDir (m := m) (by rw [show R ++ [objectsDir] = below R [] from rfl, mirrors.inside, isDir])

theorem Mirrors.walk_step (sub : List String) {x : String} (plain : Plain x) {m : Nat}
    (isDir : v (sub ++ [x]) = some (.dir m)) (rest : List String) :
    t.walk follow budget (below R sub) (x :: rest) = t.walk follow budget (below R (sub ++ [x])) rest := by
  rw [Tree.walk_cons_dir plain (m := m) (by rw [below_append, mirrors.inside, isDir]), below_append]

theorem Mirrors.walkDir_enter {m : Nat} (isDir : v [] = some (.dir m)) (rest : List String) :
    t.walkDir budget R (objectsDir :: rest) = t.walkDir budget (below R []) rest :=
  Tree.walkDir_cons_dir plain_objectsDir (m := m) (by rw [show R ++ [objectsDir] = below R [] from rfl, mirrors.inside, isDir])

theorem Mirrors.walkDir_step (sub : List String) {x : String} (plain : Plain x) {m : Nat}
    (isDir : v (sub ++ [x]) = some (.dir m)) (rest : List String) :
    t.walkDir budget (below R sub) (x :: rest) = t.walkDir budget (below R (sub ++ [x])) rest := by
  rw [Tree.walkDir_cons_dir plain (m := m) (by rw [below_append, mirrors.inside, isDir]), below_append]

end Walk

theorem Mirrors.enters_level (mirrors : Mirrors t0 R v t) {P : String} (cur : Loc) {x : String}
    (sub : List String) (plain : Plain x) (here : cur ++ [x] = below R sub) {budget : Nat}
    (reaches : ∀ follow, t.lookup P follow = t.walk follow budget cur [x])
    (reaches' : ∀ follow, (t.put (below R sub) (.dir dirMode)).lookup P follow =
      (t.put (below R sub) (.dir dirMode)).walk follow budget cur [x])
    (openable : v sub = none ∨ v sub = some (.dir dirMode)) :
    ∃ t', Enters t (P, true) t' ∧ Mirrors t0 R (Function.update v sub (some (.dir dirMode))) t' := by
  rcases openable with missing | isDir
  · -- Nothing is there yet: the level is made, then opened.
    have gone : t.get? (cur ++ [x]) = none := by rw [here, mirrors.inside, missing]
    have made : (t.put (below R sub) (.dir dirMode)).get? (cur ++ [x]) = some (.dir dirMode) := by
      rw [here, Tree.get?_put _ _ (below_ne_nil R sub), if_pos rfl]
    have entered : Enters t (P, true) (t.put (cur ++ [x]) (.dir dirMode)) := by
      refine enters_of_absent (by rw [reaches, Tree.walk_single_none plain gone]) (X := cur ++ [x]) ?_
      rw [here]
      simp [Tree.openDir, reaches', Tree.walk_single_dir plain made, here]
    rw [here] at entered
    exact ⟨_, entered, mirrors.put sub _⟩
  · -- A directory is there already: the level opens as it is.
    have there : t.get? (cur ++ [x]) = some (.dir dirMode) := by rw [here, mirrors.inside, isDir]
    refine ⟨t, enters_of_openDir (X := cur ++ [x]) ?_ true, ?_⟩
    · simp [Tree.openDir, reaches, Tree.walk_single_dir plain there]
    · rw [Function.update_eq_self_iff.mpr isDir.symm]
      exact mirrors

/-! One write. -/

theorem prefix_three {α : Type} {sub : List α} {a b c : α} :
    sub <+: [a, b, c] ↔ sub = [] ∨ sub = [a] ∨ sub = [a, b] ∨ sub = [a, b, c] := by
  simp only [List.prefix_cons_iff, List.prefix_nil]
  constructor
  · rintro (rfl | ⟨t, rfl, rfl | ⟨u, rfl, rfl | ⟨w, rfl, rfl⟩⟩⟩) <;> simp
  · rintro (rfl | rfl | rfl | rfl) <;> simp

/-- The view a write leaves: directories made down to the object's shard, then
its file. -/
def writtenView (v : List String → Option Node) (id : Gitoid) (bytes : List UInt8) : List String → Option Node :=
  let dir : Option Node := some (.dir dirMode)
  Function.update (Function.update (Function.update (Function.update v [] dir)
    [id.alg.storeNamespace] dir) [id.alg.storeNamespace, id.shardPrefix] dir) (objectNames id) (some (.file bytes))

-- The disk's layout of a write is the memory store's write, seen as files.
theorem writtenView_objectsView (m : MemoryStore) (doc : Document)
    (consistent : ∀ bytes, m.read doc.gitoid = some bytes → bytes = Text.Utf8.encode doc.text) :
    writtenView (objectsView m) doc.gitoid (Text.Utf8.encode doc.text) = objectsView (m.write doc).1 := by
  funext sub
  rw [objectsView_write m doc consistent]
  simp only [writtenView, Function.update_apply]
  by_cases named : sub = objectNames doc.gitoid
  · simp [named]
  rw [if_neg named, if_neg named]
  by_cases above : sub <+: objectNames doc.gitoid
  · rw [if_pos above]
    rcases prefix_three.mp above with rfl | rfl | rfl | rfl <;> simp_all [objectNames]
  · rw [if_neg above]
    have others : sub ≠ [doc.gitoid.alg.storeNamespace, doc.gitoid.shardPrefix] ∧
        sub ≠ [doc.gitoid.alg.storeNamespace] ∧ sub ≠ [] := by
      refine ⟨fun same => above (prefix_three.mpr ?_), fun same => above (prefix_three.mpr ?_),
        fun same => above (prefix_three.mpr ?_)⟩ <;> simp [same]
    simp [others]

theorem write_of_persist (s : DiskStore) (d : Disk) (doc : Document) {name : String}
    (stored : (s.persist d doc.gitoid.alg.storeNamespace doc.gitoid.toHex (Text.Utf8.encode doc.text)).2 =
      .ok name) :
    (s.write d doc).1 = (s.persist d doc.gitoid.alg.storeNamespace doc.gitoid.toHex
        (Text.Utf8.encode doc.text)).1 ∧ (s.write d doc).2 = .ok doc.gitoid := by
  simp only [DiskStore.write]
  generalize s.persist d _ _ _ = result at stored ⊢
  obtain ⟨d', r⟩ := result
  simp only at stored
  subst stored
  simp

section Write

variable {s : DiskStore} {m : MemoryStore}

theorem FreshRoot.enters_objectLevels (fresh : FreshRoot t0 s.root R b) {t1 : Tree}
    (mirrors : Mirrors t0 R (objectsView m) t1) (id : Gitoid) :
    ∃ t4, EntersAll t1 (descendLevels (lastPath (rootLevels s.root)) [objectsDir, id.alg.storeNamespace, id.shardPrefix]) t4 ∧
      Mirrors t0 R (Function.update (Function.update (Function.update (objectsView m) [] (some (.dir dirMode)))
        [id.alg.storeNamespace] (some (.dir dirMode))) [id.alg.storeNamespace, id.shardPrefix] (some (.dir dirMode))) t4 := by
  obtain ⟨sameNames, sameStart⟩ := lastPath_rootLevels s.root
  have plainNs := plain_storeNamespace id.alg
  have plainSh := plain_shardPrefix id
  have lookups := fun {v : List String → Option Node} {t : Tree} (mirrors : Mirrors t0 R v t) {sub : List String}
      (plain : ∀ p ∈ sub, Plain p) (follow : Bool) => fresh.lookup_objects mirrors sameNames sameStart plain follow
  -- `objects`, walked to from the root's directory
  obtain ⟨t2, enter0, mirrors1⟩ := mirrors.enters_level (P := joinAll _ [objectsDir]) R [] plain_objectsDir rfl
    (lookups mirrors (by simp)) (lookups (mirrors.put [] _) (by simp)) (objectsView_above m [] (by decide))
  -- the namespace, inside `objects`
  obtain ⟨t3, enter1, mirrors2⟩ := mirrors1.enters_level (P := joinAll _ [objectsDir, id.alg.storeNamespace])
    (below R []) [id.alg.storeNamespace] plainNs (below_append R [] _)
    (fun follow => by rw [lookups mirrors1 (by simpa using plainNs) follow, mirrors1.walk_enter (m := dirMode) (by simp)])
    (fun follow => by
      rw [lookups (mirrors1.put _ _) (by simpa using plainNs) follow, (mirrors1.put _ _).walk_enter (m := dirMode) (by simp)])
    (by rw [Function.update_of_ne (by simp)]; exact objectsView_above m _ (by simp))
  -- the shard, inside the namespace
  have plainBoth : ∀ p ∈ [id.alg.storeNamespace, id.shardPrefix], Plain p := by
    simp only [List.mem_cons, List.not_mem_nil, or_false]
    rintro p (rfl | rfl)
    · exact plainNs
    · exact plainSh
  obtain ⟨t4, enter2, mirrors3⟩ := mirrors2.enters_level
    (P := joinAll _ [objectsDir, id.alg.storeNamespace, id.shardPrefix]) (below R [id.alg.storeNamespace])
    [id.alg.storeNamespace, id.shardPrefix] plainSh (below_append R _ _)
    (fun follow => by
      rw [lookups mirrors2 plainBoth follow, mirrors2.walk_enter (m := dirMode) (by simp), mirrors2.walk_step [] plainNs (m := dirMode) (by simp), List.nil_append])
    (fun follow => by
      rw [lookups (mirrors2.put _ _) plainBoth follow, (mirrors2.put _ _).walk_enter (m := dirMode) (by simp),
        (mirrors2.put _ _).walk_step [] plainNs (m := dirMode) (by simp), List.nil_append])
    (by rw [Function.update_of_ne (by simp), Function.update_of_ne (by simp)]; exact objectsView_above m _ (by simp))
  exact ⟨t4, .cons enter0 (.cons enter1 (.cons enter2 (.nil _))), mirrors3⟩

theorem FreshRoot.writeLeaf_object (fresh : FreshRoot t0 s.root R b) {v : List String → Option Node} {t4 : Tree}
    (mirrors : Mirrors t0 R v t4) (id : Gitoid)
    (dirs : v [] = some (.dir dirMode) ∧ v [id.alg.storeNamespace] = some (.dir dirMode) ∧
      v [id.alg.storeNamespace, id.shardPrefix] = some (.dir dirMode))
    (free : v (objectNames id) = none ∨ ∃ bytes, v (objectNames id) = some (.file bytes)) (h : Handles)
    (content : List UInt8) :
    writeLeaf ⟨t4, h⟩ (objectLeaf s id) content =
      (⟨t4.put (below R (objectNames id)) (.file content), h⟩, .ok ()) := by
  obtain ⟨top, ns, shard⟩ := dirs
  have inner : ∀ p ∈ [objectsDir, id.alg.storeNamespace, id.shardPrefix], Plain p :=
    fun p mem => plain_objectPath id p (List.mem_append_left [id.shardSuffix] mem)
  -- The directory part of the object's path walks through the directories made.
  have walked : t4.walkDir linkBudget
      (if isAbsolute (joinAll s.root [objectsDir, id.alg.storeNamespace, id.shardPrefix]) then [] else t4.cwd)
      (walkNames (joinAll s.root [objectsDir, id.alg.storeNamespace, id.shardPrefix])) =
        .ok (below R [id.alg.storeNamespace, id.shardPrefix], b) := by
    rw [isAbsolute_joinAll _ inner, walkNames_joinAll _ inner, Tree.walkDir_append, fresh.walked_in mirrors]
    simp only [bind, Except.bind]
    rw [mirrors.walkDir_enter top, mirrors.walkDir_step [] (plain_storeNamespace _) ns, List.nil_append,
      mirrors.walkDir_step _ (plain_shardPrefix id) shard, Tree.walkDir]
    rfl
  have free' : t4.get? (below R [id.alg.storeNamespace, id.shardPrefix] ++ [id.shardSuffix]) = none ∨
      ∃ bytes, t4.get? (below R [id.alg.storeNamespace, id.shardPrefix] ++ [id.shardSuffix]) = some (.file bytes) := by
    rw [below_append, mirrors.inside]
    exact free
  have created : t4.createAt linkBudget t4.cwd (objectLeaf s id) = .ok (below R (objectNames id)) := by
    rw [objectLeaf_createAt, objectPath_eq,
      show objectsDir :: objectNames id = [objectsDir, id.alg.storeNamespace, id.shardPrefix] ++ [id.shardSuffix] from rfl,
      joinAll_concat, createAt_join_of_walkDir t4 (plain_shardSuffix id) walked free', below_append]
    rfl
  have named : objectLeaf s id ≠ "" := (plain_shardSuffix id).join_ne_empty _
  simp [writeLeaf, Tree.writeFile, named, created, Except.map]

theorem DiskStore.write_mirrors (fresh : FreshRoot t0 s.root R b) {t t1 : Tree}
    (entered : EntersAll t (rootLevels s.root) t1) (mirrors : Mirrors t0 R (objectsView m) t1) (doc : Document)
    (consistent : ∀ bytes, m.read doc.gitoid = some bytes → bytes = Text.Utf8.encode doc.text) (h : Handles) :
    (s.write ⟨t, h⟩ doc).2 = .ok doc.gitoid ∧
      Mirrors t0 R (objectsView (m.write doc).1) (s.write ⟨t, h⟩ doc).1.tree := by
  obtain ⟨t4, descended, mirrors3⟩ := fresh.enters_objectLevels mirrors doc.gitoid
  have walked : EntersAll t (levels s.root [objectsDir, doc.gitoid.alg.storeNamespace, doc.gitoid.shardPrefix]) t4 :=
    entered.append descended
  have free : objectsView m (objectNames doc.gitoid) = none ∨
      ∃ bytes, objectsView m (objectNames doc.gitoid) = some (.file bytes) := by
    rw [objectsView_objectNames]
    cases m.read doc.gitoid with
    | none => exact .inl rfl
    | some bytes => exact .inr ⟨bytes, rfl⟩
  have leaf := fresh.writeLeaf_object mirrors3 doc.gitoid ⟨by simp, by simp, by simp⟩
    (by simpa [Function.update_apply, objectNames] using free)
  have persisted : (s.persist ⟨t, h⟩ doc.gitoid.alg.storeNamespace doc.gitoid.toHex (Text.Utf8.encode doc.text)).1.tree =
        t4.put (below R (objectNames doc.gitoid)) (.file (Text.Utf8.encode doc.text)) ∧
      (s.persist ⟨t, h⟩ doc.gitoid.alg.storeNamespace doc.gitoid.toHex (Text.Utf8.encode doc.text)).2 =
        .ok doc.gitoid.toHex := by
    simp only [DiskStore.persist, storeNamespace_valid, toHex_valid, Bool.not_true, Bool.false_eq_true, if_false,
      shard_of_toHex, rest_of_toHex, withLevels_of_entersAll walked]
    rw [show join (lastPath (levels s.root [objectsDir, doc.gitoid.alg.storeNamespace, doc.gitoid.shardPrefix]))
      doc.gitoid.shardSuffix = objectLeaf s doc.gitoid from rfl, leaf]
    simp
  obtain ⟨same, written⟩ := write_of_persist s ⟨t, h⟩ doc persisted.2
  refine ⟨written, ?_⟩
  rw [same, persisted.1, ← writtenView_objectsView m doc consistent]
  exact mirrors3.put (objectNames doc.gitoid) _

/-! Reading. -/

theorem MemoryStore.stored_of_read {m : MemoryStore} {id : Gitoid} {bytes : List UInt8}
    (stored : m.read id = some bytes) : ∃ e ∈ m.objects, e.1 = id := by
  simp only [MemoryStore.read, Option.map_eq_some_iff] at stored
  obtain ⟨e, found, -⟩ := stored
  exact ⟨e, List.mem_of_find?_eq_some found, by simpa using List.find?_some found⟩

-- Above a stored object's file stand the directories of its names.
theorem objectsView_above_stored {m : MemoryStore} {id : Gitoid} {bytes : List UInt8} (stored : m.read id = some bytes)
    {sub : List String} (above : sub <+: objectNames id) (short : sub.length < 3) :
    objectsView m sub = some (.dir dirMode) := by
  obtain ⟨e, mem, same⟩ := MemoryStore.stored_of_read stored
  rw [objectsView_of_length_lt m short, if_pos]
  exact List.any_eq_true.mpr ⟨e, mem, by rw [same]; exact List.isPrefixOf_iff_prefix.mpr above⟩

theorem FreshRoot.read_mirrors (fresh : FreshRoot t0 s.root R b) {t : Tree}
    (mirrors : Mirrors t0 R (objectsView m) t) (id : Gitoid) :
    s.read t id = .ok (m.read id) ∧ s.contains t id = m.contains id ∧ s.verify t id = m.verify id := by
  have plainNs := plain_storeNamespace id.alg
  have plainSh := plain_shardPrefix id
  have plainRest := plain_shardSuffix id
  have looked : t.lookup (s.objectPath id) true =
      t.walk true b R [objectsDir, id.alg.storeNamespace, id.shardPrefix, id.shardSuffix] :=
    fresh.lookup_objects mirrors rfl rfl (plain_objectNames id) true
  have reads : s.read t id = .ok (m.read id) ∧ s.contains t id = m.contains id := by
    rw [MemoryStore.contains_eq_isSome]
    cases stored : m.read id with
    | some bytes =>
      -- The walk passes the directories of the names and ends at the file.
      have file : objectsView m (objectNames id) = some (.file bytes) := by
        rw [objectsView_objectNames, stored]
        rfl
      have walked : t.lookup (s.objectPath id) true = .ok (.node (below R (objectNames id)) (.file bytes)) := by
        rw [looked, mirrors.walk_enter (objectsView_above_stored stored List.nil_prefix (by decide)),
          mirrors.walk_step [] plainNs (objectsView_above_stored stored (by simp [objectNames]) (by simp)),
          List.nil_append, mirrors.walk_step _ plainSh (objectsView_above_stored stored (by simp [objectNames]) (by simp)),
          Tree.walk_single_file plainRest (by rw [below_append, mirrors.inside]; exact file), below_append]
        rfl
      simp [DiskStore.read, DiskStore.contains, Tree.readFile, Tree.isFile, walked]
    | none =>
      -- The walk stops at the first name that holds nothing.
      have noFile : objectsView m (objectNames id) = none := by
        rw [objectsView_objectNames, stored]
        rfl
      have missing : t.lookup (s.objectPath id) true = .error .notFound ∨
          ∃ loc, t.lookup (s.objectPath id) true = .ok (.absent loc) := by
        rw [looked]
        rcases objectsView_above m [] (by decide) with v0 | v0
        · left
          rw [Tree.walk_cons_none plain_objectsDir (by rw [show R ++ [objectsDir] = below R [] from rfl, mirrors.inside, v0])]
          simp
        rw [mirrors.walk_enter v0]
        rcases objectsView_above m [id.alg.storeNamespace] (by simp) with v1 | v1
        · left
          rw [Tree.walk_cons_none plainNs (by rw [below_append, mirrors.inside]; exact v1)]
          simp
        rw [mirrors.walk_step [] plainNs v1, List.nil_append]
        rcases objectsView_above m [id.alg.storeNamespace, id.shardPrefix] (by simp) with v2 | v2
        · left
          rw [Tree.walk_cons_none plainSh (by rw [below_append, mirrors.inside]; exact v2)]
          simp
        rw [mirrors.walk_step _ plainSh v2]
        exact .inr ⟨_, Tree.walk_single_none plainRest (by rw [below_append, mirrors.inside]; exact noFile)⟩
      rcases missing with notFound | ⟨loc, absent⟩
      · simp [DiskStore.read, DiskStore.contains, Tree.readFile, Tree.isFile, notFound]
      · simp [DiskStore.read, DiskStore.contains, Tree.readFile, Tree.isFile, absent]
  refine ⟨reads.1, reads.2, ?_⟩
  simp [DiskStore.verify, MemoryStore.verify, reads.1, bind, Except.bind]

end Write

/-! Fresh roots. -/

theorem freshRoot_of_walkDir (wf : t0.WellFormed)
    (walked : t0.walkDir linkBudget (if isAbsolute root then [] else t0.cwd) (walkNames root) = .ok (R, b))
    {O : Loc} (noObjects : t0.lookup (join root objectsDir) false = .ok (.absent O)) : FreshRoot t0 root R b := by
  refine ⟨walked, fun sub => ?_⟩
  -- `objects` holds nothing there, so nothing lies below it either.
  rw [show join root objectsDir = joinAll root [objectsDir] from rfl,
    lookup_joinAll t0 false root (by simp [plain_objectsDir]) (by simp), Tree.walk_append _ _ _ _ _ _ (by simp),
    walked] at noObjects
  obtain ⟨here, nothing⟩ := Tree.walk_single_absent plain_objectsDir noObjects
  rw [below, show R ++ objectsDir :: sub = (R ++ [objectsDir]) ++ sub by simp, ← here]
  exact Tree.get?_below_none wf nothing sub

theorem FreshRoot.enters_rootLevels (wf : t0.WellFormed) (fresh : FreshRoot t0 root R b) {t : Tree}
    (mirrors : Mirrors t0 R v t) : EntersAll t (rootLevels root) t := by
  apply EntersAll.of_openDir
  intro level mem
  obtain ⟨named, sameStart, more, whole⟩ := rootLevels_prefix root level mem
  -- The level walks a first part of the root's walk, so it ends in a directory of `t0`.
  have start := wf.start_dir root
  obtain ⟨X, bX, walked⟩ : ∃ X bX,
      t0.walkDir linkBudget (if isAbsolute root then [] else t0.cwd) (walkNames level.1) = .ok (X, bX) := by
    have all := fresh.walked
    rw [← whole, Tree.walkDir_append] at all
    cases first : t0.walkDir linkBudget (if isAbsolute root then [] else t0.cwd) (walkNames level.1) with
    | error e =>
      rw [first] at all
      cases all
    | ok r => exact ⟨r.1, r.2, rfl⟩
  obtain ⟨m, isDir⟩ := Tree.walkDir_dir wf start walked
  refine ⟨X, Tree.openDir_of_walkDir named (b := bX) ?_ (fresh.keeps mirrors X _ isDir)⟩
  rw [sameStart, mirrors.cwd]
  exact Tree.walkDir_mono (fresh.keeps mirrors) walked

theorem FreshRoot.read_of_keeps {s : DiskStore} (fresh : FreshRoot t0 s.root R b)
    (keeps : ∀ loc n, t.get? loc = some n → t0.get? loc = some n) (cwd : t.cwd = t0.cwd) (id : Gitoid) :
    s.read t id = .ok (({} : MemoryStore).read id) ∧ s.contains t id = ({} : MemoryStore).contains id ∧
      s.verify t id = ({} : MemoryStore).verify id := by
  have start := fresh.walked
  rw [← cwd] at start
  have notFound : t.lookup (s.objectPath id) true = .error .notFound := by
    rw [objectPath_eq, lookup_joinAll t true s.root (plain_objectPath id) (by simp),
      Tree.walk_append _ _ _ _ _ _ (by simp)]
    cases first : t.walkDir linkBudget (if isAbsolute s.root then [] else t.cwd) (walkNames s.root) with
    | ok r =>
      -- The root walks in `t` to the same directory, where nothing is named `objects`.
      have same : r = (R, b) := by
        have there := Tree.walkDir_mono keeps first
        rw [start] at there
        exact (Except.ok.inj there).symm
      subst same
      have gone : t.get? (R ++ [objectsDir]) = none := by
        cases held : t.get? (R ++ [objectsDir]) with
        | none => rfl
        | some n =>
          have kept := keeps _ _ held
          rw [show R ++ [objectsDir] = below R [] from rfl, fresh.empty] at kept
          cases kept
      simp only [bind, Except.bind]
      rw [Tree.walk_cons_none plain_objectsDir gone]
      simp [objectNames]
    | error e =>
      by_cases missing : e = .notFound
      · rw [missing]
        rfl
      · have there := Tree.walkDir_mono_error keeps first missing
        rw [start] at there
        cases there
  have reads : s.read t id = .ok (({} : MemoryStore).read id) := by
    simp [DiskStore.read, Tree.readFile, notFound, MemoryStore.read]
  refine ⟨reads, by simp [DiskStore.contains, Tree.isFile, notFound, MemoryStore.contains], ?_⟩
  simp [DiskStore.verify, MemoryStore.verify, reads, bind, Except.bind]

theorem Mirrors.put_outside (mirrors : Mirrors t0 R v t) {loc : Loc} (notRoot : loc ≠ [])
    (away : ¬ below R [] <+: loc) (n : Node) : Mirrors (t0.put loc n) R v (t.put loc n) where
  cwd := mirrors.cwd
  outside loc' away' := by
    rw [Tree.get?_put _ _ notRoot, Tree.get?_put _ _ notRoot, mirrors.outside loc' away']
  inside sub := by
    have elsewhere : below R sub ≠ loc := fun same => away (same ▸ below_prefix R sub)
    rw [Tree.get?_put _ _ notRoot, if_neg elsewhere, mirrors.inside]

end Provenance.Store
