import Provenance.Proofs.StoreWalk
import Provenance.Proofs.TreeWalk
/-!
Where the stores keep their files. An object's file is reached through plain
names below the root: `objects`, the algorithm's namespace, the shard and the
rest of the hex digits; a metadata file through `metadata`, `gnu`, the
namespace and the output's name. Writing walks down to the last directory from
the root's own levels and names the file from there, reading joins the names
to the root; both paths have the same start and the same moving pieces, so
they name the same place in every tree, for lookups and for creating a file.
Distinct gitoids have distinct names.
-/

namespace Provenance.Store

open Files

/-! Plain names. -/

theorem plain_objectsDir : Plain objectsDir := ⟨by decide, by decide, by decide, by decide⟩

theorem plain_metadataDir : Plain metadataDir := ⟨by decide, by decide, by decide, by decide⟩

theorem plain_producerDir : Plain producerDir := ⟨by decide, by decide, by decide, by decide⟩

theorem plain_storeNamespace (a : HashAlg) : Plain a.storeNamespace := by
  cases a <;> exact ⟨by decide, by decide, by decide, by decide⟩

-- Hex digits are neither separators nor dots.
theorem plain_encode {bs : List UInt8} (nonempty : bs ≠ []) : Plain (Text.Hex.encode bs) := by
  have digit : ∀ c ∈ (Text.Hex.encode bs).toList, c ≠ '/' ∧ c ≠ '.' := by
    intro c mem
    have hex := isHexDigit_of_mem_encode mem
    constructor <;> (rintro rfl; revert hex; decide)
  have long : (Text.Hex.encode bs).toList ≠ [] := by
    obtain ⟨b, rest, rfl⟩ := List.exists_cons_of_ne_nil nonempty
    simp [Text.Hex.encode, Text.Hex.encodeChars, Text.Hex.pair]
  refine ⟨fun empty => long (by simp [empty]), fun mem => (digit _ mem).1 rfl, ?_, ?_⟩
  · intro dot
    exact (digit '.' (by simp [dot])).2 rfl
  · intro up
    exact (digit '.' (by simp [up])).2 rfl

theorem plain_shardPrefix (g : Gitoid) : Plain g.shardPrefix := by
  obtain ⟨b, rest, split⟩ := digest_cons g
  exact plain_encode (by simp [split])

theorem plain_shardSuffix (g : Gitoid) : Plain g.shardSuffix := by
  have long : 1 < g.digest.length := by rw [g.length_digest]; cases g.alg <;> decide
  exact plain_encode (by simp only [ne_eq, List.drop_eq_nil_iff]; omega)

-- A file name is one piece of its path, so the metadata name made from it is plain.
theorem mem_of_name_mem_piecesComponents {s : String} :
    ∀ (first : Bool) (ps : List String), .name s ∈ piecesComponents first ps → s ∈ ps := by
  intro first ps
  induction ps generalizing first with
  | nil => simp [piecesComponents]
  | cons p rest ih =>
    intro mem
    rw [piecesComponents] at mem
    by_cases empty : p = ""
    · rw [if_pos empty] at mem
      exact List.mem_cons_of_mem _ (ih _ mem)
    rw [if_neg empty] at mem
    by_cases dot : p = "."
    · rw [if_pos dot] at mem
      cases first <;> simp only [Bool.false_eq_true, if_false, if_true, List.mem_cons, reduceCtorEq,
        false_or] at mem <;> exact List.mem_cons_of_mem _ (ih _ mem)
    rw [if_neg dot] at mem
    by_cases up : p = ".."
    · rw [if_pos up] at mem
      simp only [List.mem_cons, reduceCtorEq, false_or] at mem
      exact List.mem_cons_of_mem _ (ih _ mem)
    rw [if_neg up] at mem
    simp only [List.mem_cons, Component.name.injEq] at mem
    rcases mem with rfl | inRest
    · exact List.mem_cons_self
    · exact List.mem_cons_of_mem _ (ih _ inRest)

theorem sep_not_mem_of_fileName {p n : String} (named : fileName p = some n) : '/' ∉ n.toList := by
  have last : .name n ∈ components p := by
    unfold fileName at named
    split at named
    · rename_i s found
      cases named
      exact List.mem_of_getLast? found
    · cases named
  apply sep_not_mem_of_mem_pieces (p := p)
  unfold components at last
  split at last
  · simp only [List.mem_cons, reduceCtorEq, false_or] at last
    exact mem_of_name_mem_piecesComponents _ _ last
  · split at last
    · rename_i rest split
      simp only [List.mem_cons, reduceCtorEq, false_or] at last
      rw [split]
      exact List.mem_cons_of_mem _ (mem_of_name_mem_piecesComponents _ _ last)
    · exact mem_of_name_mem_piecesComponents _ _ last

theorem plain_metadataName {p n : String} (named : fileName p = some n) : Plain (n ++ ".metadata") := by
  have suffix : ".metadata".length = 9 := by decide
  have long : 9 ≤ (n ++ ".metadata").length := by simp [suffix]
  refine ⟨fun empty => ?_, ?_, fun dot => ?_, fun up => ?_⟩
  · rw [empty] at long
    exact absurd long (by decide)
  · simp only [String.toList_append, List.mem_append, not_or]
    exact ⟨sep_not_mem_of_fileName named, by decide⟩
  · rw [dot] at long
    exact absurd long (by decide)
  · rw [up] at long
    exact absurd long (by decide)

/-! The names of an object's file. -/

/-- The names below the objects directory of the file that holds an object:
its algorithm's namespace, the shard and the rest of the hex digits. -/
def objectNames (id : Gitoid) : List String := [id.alg.storeNamespace, id.shardPrefix, id.shardSuffix]

theorem plain_objectNames (id : Gitoid) : ∀ p ∈ objectNames id, Plain p := by
  simp only [objectNames, List.mem_cons, List.not_mem_nil, or_false]
  rintro p (rfl | rfl | rfl)
  · exact plain_storeNamespace _
  · exact plain_shardPrefix _
  · exact plain_shardSuffix _

theorem storeNamespace_injective {a b : HashAlg} (same : a.storeNamespace = b.storeNamespace) : a = b := by
  cases a <;> cases b <;> first | rfl | (revert same; decide)

theorem encode_injective {xs ys : List UInt8} (same : Text.Hex.encode xs = Text.Hex.encode ys) : xs = ys := by
  have decoded := congrArg Text.Hex.decode same
  rw [Text.Hex.decode_encode, Text.Hex.decode_encode] at decoded
  exact Except.ok.inj decoded

-- The shard is the first byte and the rest the others, so together they give
-- the whole digest back.
theorem objectNames_injective {g h : Gitoid} (same : objectNames g = objectNames h) : g = h := by
  simp only [objectNames, List.cons.injEq, and_true] at same
  obtain ⟨ns, shard, rest⟩ := same
  have first : g.digest.take 1 = h.digest.take 1 := encode_injective shard
  have others : g.digest.drop 1 = h.digest.drop 1 := encode_injective rest
  refine Gitoid.eq_iff.mpr ⟨storeNamespace_injective ns, ?_⟩
  rw [← List.take_append_drop 1 g.digest, ← List.take_append_drop 1 h.digest, first, others]

/-! Paths made by joining plain names. -/

def joinAll (base : String) (names : List String) : String := names.foldl join base

variable {names : List String}

theorem walkNames_joinAll (base : String) (plain : ∀ p ∈ names, Plain p) :
    walkNames (joinAll base names) = walkNames base ++ names := by
  induction names generalizing base with
  | nil => simp [joinAll]
  | cons n rest ih =>
    have restPlain : ∀ p ∈ rest, Plain p := fun p mem => plain p (List.mem_cons_of_mem _ mem)
    simp only [joinAll, List.foldl_cons] at ih ⊢
    rw [ih _ restPlain, (plain n List.mem_cons_self).walkNames_join]
    simp

theorem isAbsolute_joinAll (base : String) (plain : ∀ p ∈ names, Plain p) :
    isAbsolute (joinAll base names) = isAbsolute base := by
  induction names generalizing base with
  | nil => simp [joinAll]
  | cons n rest ih =>
    have restPlain : ∀ p ∈ rest, Plain p := fun p mem => plain p (List.mem_cons_of_mem _ mem)
    simp only [joinAll, List.foldl_cons] at ih ⊢
    rw [ih _ restPlain, (plain n List.mem_cons_self).isAbsolute_join]

theorem joinAll_concat (base : String) (names : List String) (n : String) :
    joinAll base (names ++ [n]) = join (joinAll base names) n := by
  simp [joinAll]

theorem joinAll_ne_empty (base : String) (plain : ∀ p ∈ names, Plain p) (nonempty : names ≠ []) :
    joinAll base names ≠ "" := by
  obtain ⟨front, n, rfl⟩ := List.eq_nil_or_concat names |>.resolve_left nonempty
  rw [List.concat_eq_append, joinAll_concat]
  exact (plain n (by simp)).join_ne_empty _

theorem last_walkPieces_joinAll (base : String) (plain : ∀ p ∈ names, Plain p) (nonempty : names ≠ []) :
    (walkPieces (joinAll base names)).getLast? ≠ some "." := by
  obtain ⟨front, n, rfl⟩ := List.eq_nil_or_concat names |>.resolve_left nonempty
  rw [List.concat_eq_append, joinAll_concat]
  have plainN := plain n (by simp)
  rw [plainN.last_walkPieces_join]
  exact fun same => plainN.notDot (Option.some.inj same)

theorem lookup_joinAll (t : Tree) (follow : Bool) (B : String) (plain : ∀ p ∈ names, Plain p)
    (nonempty : names ≠ []) :
    t.lookup (joinAll B names) follow =
      t.walk follow linkBudget (if isAbsolute B then [] else t.cwd) (walkNames B ++ names) := by
  rw [Tree.lookup_eq_walk t (joinAll_ne_empty B plain nonempty) follow (last_walkPieces_joinAll B plain nonempty),
    walkNames_joinAll B plain, isAbsolute_joinAll B plain]

theorem lookup_joinAll_congr (t : Tree) (follow : Bool) {B B' : String} (plain : ∀ p ∈ names, Plain p)
    (nonempty : names ≠ []) (sameNames : walkNames B = walkNames B') (sameStart : isAbsolute B = isAbsolute B') :
    t.lookup (joinAll B names) follow = t.lookup (joinAll B' names) follow := by
  rw [lookup_joinAll t follow B plain nonempty, lookup_joinAll t follow B' plain nonempty, sameNames, sameStart]

theorem walk_dirPart (t : Tree) (budget : Nat) (cur : Loc) (X : String) :
    t.walk true budget (if isAbsolute X then [] else cur) ((pieces X).filter (· ≠ "") ++ ["."]) =
      t.walkDir budget (if isAbsolute X then [] else cur) (walkNames X) >>= fun r => t.walk true r.2 r.1 ["."] := by
  rw [Tree.walk_append _ _ _ _ _ _ (by simp)]
  congr 1
  apply Tree.walkDir_similar
  rw [← walkNames_eq, filter_walkNames]

theorem createAt_join_congr (t : Tree) (budget : Nat) (cur : Loc) {B B' n : String} (plain : Plain n)
    (sameNames : walkNames B = walkNames B') (sameStart : isAbsolute B = isAbsolute B') :
    t.createAt budget cur (join B n) = t.createAt budget cur (join B' n) := by
  rw [Tree.createAt, Tree.createAt]
  simp only [filter_pieces_join _ plain.one plain.nonempty, List.getLast?_concat, List.dropLast_concat,
    isAbsolute_join _ plain.one, getLast?_join _ plain.one plain.nonempty]
  rw [walk_dirPart, walk_dirPart, sameNames, sameStart]

theorem createAt_join_of_walkDir (t : Tree) {budget : Nat} {cur : Loc} {X n : String} (plain : Plain n)
    {D : Loc} {b : Nat} (walked : t.walkDir budget (if isAbsolute X then [] else cur) (walkNames X) = .ok (D, b))
    (free : t.get? (D ++ [n]) = none ∨ ∃ bytes, t.get? (D ++ [n]) = some (.file bytes)) :
    t.createAt budget cur (join X n) = .ok (D ++ [n]) := by
  have notSlash : n.toList.getLast? ≠ some '/' := fun last => plain.one (List.mem_of_getLast? last)
  rw [Tree.createAt]
  simp only [filter_pieces_join _ plain.one plain.nonempty, List.getLast?_concat, List.dropLast_concat,
    isAbsolute_join _ plain.one, getLast?_join _ plain.one plain.nonempty]
  rw [walk_dirPart, walked]
  simp only [bind, Except.bind, Tree.walk_dot, Tree.walk_nil, plain.notDot, plain.notUp, notSlash, or_self,
    if_false]
  rcases free with missing | ⟨bytes, isFile⟩
  · simp [missing]
  · simp [isFile]

/-! The two paths to a stored file. -/

theorem levels_eq (root : String) (names : List String) :
    levels root names = rootLevels root ++ descendLevels (lastPath (rootLevels root)) names := rfl

theorem descendLevels_three (D a b c : String) :
    descendLevels D [a, b, c] = [(joinAll D [a], true), (joinAll D [a, b], true), (joinAll D [a, b, c], true)] :=
  rfl

theorem lastPath_levels_three (root a b c : String) :
    lastPath (levels root [a, b, c]) = joinAll (lastPath (rootLevels root)) [a, b, c] := by
  simp [levels_eq, descendLevels_three, lastPath]

variable {a b c n : String}

theorem leaf_lookup (root : String) (plain : ∀ p ∈ [a, b, c, n], Plain p) (t : Tree) (follow : Bool) :
    t.lookup (join (lastPath (levels root [a, b, c])) n) follow = t.lookup (joinAll root [a, b, c, n]) follow := by
  obtain ⟨sameNames, sameStart⟩ := lastPath_rootLevels root
  rw [lastPath_levels_three, ← joinAll_concat]
  exact lookup_joinAll_congr t follow plain (by simp) sameNames sameStart

theorem leaf_createAt (root : String) (plain : ∀ p ∈ [a, b, c, n], Plain p) (t : Tree) (budget : Nat)
    (cur : Loc) :
    t.createAt budget cur (join (lastPath (levels root [a, b, c])) n) =
      t.createAt budget cur (joinAll root [a, b, c, n]) := by
  obtain ⟨sameNames, sameStart⟩ := lastPath_rootLevels root
  have inner : ∀ p ∈ [a, b, c], Plain p := fun p mem => plain p (List.mem_append_left [n] mem)
  rw [lastPath_levels_three, show [a, b, c, n] = [a, b, c] ++ [n] from rfl, joinAll_concat]
  apply createAt_join_congr t budget cur (plain n (by simp))
  · rw [walkNames_joinAll _ inner, walkNames_joinAll _ inner, sameNames]
  · rw [isAbsolute_joinAll _ inner, isAbsolute_joinAll _ inner, sameStart]

/-- The file writing an object lands in, named from the last directory its
walk reaches. -/
def objectLeaf (s : DiskStore) (id : Gitoid) : String :=
  join (lastPath (objectLevels s id)) id.shardSuffix

theorem objectPath_eq (s : DiskStore) (id : Gitoid) :
    s.objectPath id = joinAll s.root (objectsDir :: objectNames id) := rfl

theorem plain_objectPath (id : Gitoid) : ∀ p ∈ objectsDir :: objectNames id, Plain p := by
  intro p mem
  rcases List.mem_cons.mp mem with rfl | inNames
  · exact plain_objectsDir
  · exact plain_objectNames id p inNames

theorem objectLeaf_lookup (s : DiskStore) (id : Gitoid) (t : Tree) (follow : Bool) :
    t.lookup (objectLeaf s id) follow = t.lookup (s.objectPath id) follow :=
  leaf_lookup s.root (plain_objectPath id) t follow

theorem objectLeaf_createAt (s : DiskStore) (id : Gitoid) (t : Tree) (budget : Nat) (cur : Loc) :
    t.createAt budget cur (objectLeaf s id) = t.createAt budget cur (s.objectPath id) :=
  leaf_createAt s.root (plain_objectPath id) t budget cur

theorem metadataPath_eq (root : String) (alg : HashAlg) {output name : String} (named : fileName output = some name) :
    metadataPath root alg output =
      .ok (joinAll root [metadataDir, producerDir, alg.storeNamespace, name ++ ".metadata"]) := by
  simp [metadataPath, metadataFileName, named, Except.map, joinAll]

theorem plain_metadataPath (alg : HashAlg) {output name : String} (named : fileName output = some name) :
    ∀ p ∈ [metadataDir, producerDir, alg.storeNamespace, name ++ ".metadata"], Plain p := by
  simp only [List.mem_cons, List.not_mem_nil, or_false]
  rintro p (rfl | rfl | rfl | rfl)
  · exact plain_metadataDir
  · exact plain_producerDir
  · exact plain_storeNamespace alg
  · exact plain_metadataName named

end Provenance.Store
