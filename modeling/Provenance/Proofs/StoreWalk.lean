import Provenance.Session.Basic
import Provenance.Proofs.HexRoundTrip
/-!
Directory handles and what a failed store call leaves behind. A store call
walks down a list of levels, opening each and making the ones that may be
made and are missing, then runs its leaf step in the last one and releases
every handle the walk opened. One level opens a handle or fails, and makes
at most one directory, at the place its path named and where nothing was;
a walk is those steps in order until the first failure. So whatever happens,
the live handle count returns to its value on entry, the count of handles
ever opened grows by the number of levels opened, and a failed call leaves
only the directories made on the way down. Writing an object, recording
metadata and finishing a session are such walks, or change nothing before
their names are checked.
-/

namespace Provenance.Files.Tree

-- A walk reports a place as absent only where it found nothing.
theorem walk_absent {t : Tree} {follow : Bool} {budget : Nat} {cur : Loc} {ps : List String} {loc : Loc}
    (found : t.walk follow budget cur ps = .ok (.absent loc)) : t.get? loc = none := by
  fun_induction t.walk follow budget cur ps with
  | case4 =>
    rename_i missing
    simp only [Except.ok.injEq, Found.absent.injEq] at found
    rw [← found]
    exact missing
  | case2 _ _ _ ih => exact ih found
  | case3 _ _ _ _ ih => exact ih found
  | case6 => rename_i ih; exact ih found
  | case12 => rename_i ih; exact ih (by simpa using found)
  | _ => cases found

theorem lookup_absent {t : Tree} {path : String} {follow : Bool} {loc : Loc}
    (found : t.lookup path follow = .ok (.absent loc)) : t.get? loc = none := by
  unfold lookup at found
  split at found
  · cases found
  · exact walk_absent found

-- Nothing is at the place, so putting a node there only adds it.
theorem put_of_get?_none {t : Tree} {loc : Loc} (absent : t.get? loc = none) (n : Node) :
    t.put loc n = { t with nodes := t.nodes ++ [(loc, n)] } := by
  have nothing : ∀ e ∈ t.nodes, e.1 ≠ loc := by
    intro e mem same
    unfold get? at absent
    split at absent
    · cases absent
    · simp only [Option.map_eq_none_iff, List.find?_eq_none] at absent
      exact absent e mem (by simp [same])
  simp only [put]
  rw [List.filter_eq_self.mpr fun e mem => by simpa using nothing e mem]

theorem mkdir_eq_ok {t t' : Tree} {path : String} {mode : Nat} (made : t.mkdir path mode = .ok t') :
    ∃ loc, t.lookup path false = .ok (.absent loc) ∧ t' = { t with nodes := t.nodes ++ [(loc, .dir mode)] } := by
  unfold mkdir at made
  split at made
  · rename_i loc found
    cases made
    exact ⟨loc, found, put_of_get?_none (lookup_absent found) _⟩
  all_goals cases made

end Provenance.Files.Tree

namespace Provenance.Store

open Files

def withDirs (t : Tree) (locs : List Loc) : Tree :=
  { t with nodes := t.nodes ++ locs.map fun loc => (loc, .dir dirMode) }

@[simp] theorem withDirs_nil (t : Tree) : withDirs t [] = t := by
  simp [withDirs]

theorem withDirs_append (t : Tree) (a b : List Loc) : withDirs (withDirs t a) b = withDirs t (a ++ b) := by
  simp [withDirs, List.append_assoc]

/-- The directories a walk down some levels made: each for a level that may be
created, in the order of the levels, where that level's path named a place
holding nothing. -/
inductive MadeAlong : Tree → List Level → List Loc → Prop
  | nil (t : Tree) : MadeAlong t [] []
  | kept {t : Tree} {level : Level} {ls : List Level} {created : List Loc} :
      MadeAlong t ls created → MadeAlong t (level :: ls) created
  | made {t : Tree} {path : String} {ls : List Level} {loc : Loc} {created : List Loc} :
      t.lookup path false = .ok (.absent loc) → MadeAlong (withDirs t [loc]) ls created →
      MadeAlong t ((path, true) :: ls) (loc :: created)

theorem MadeAlong.append {t : Tree} {ls ls' : List Level} {c c' : List Loc}
    (first : MadeAlong t ls c) (second : MadeAlong (withDirs t c) ls' c') :
    MadeAlong t (ls ++ ls') (c ++ c') := by
  induction first with
  | nil t => simpa using second
  | kept _ ih => exact .kept (ih second)
  | made found _ ih => exact .made found (ih (by rwa [withDirs_append]))

theorem enter_cases (d : Disk) (path : String) (create : Bool) :
    enter d (path, create) = ({ d with handles := d.handles.acquire }, .ok ()) ∨
    (∃ e, enter d (path, create) = (d, .error (.directory path e))) ∨
    ∃ loc, create = true ∧ d.tree.lookup path false = .ok (.absent loc) ∧
      (enter d (path, create) = ({ tree := withDirs d.tree [loc], handles := d.handles.acquire }, .ok ()) ∨
        ∃ e, enter d (path, create) = ({ d with tree := withDirs d.tree [loc] }, .error (.directory path e))) := by
  cases opened : d.tree.openDir path with
  | ok _ => exact .inl (by simp [enter, opened])
  | error e =>
    -- Only a missing level that may be created is made.
    by_cases makeable : e = .notFound ∧ create = true
    · obtain ⟨rfl, rfl⟩ := makeable
      cases made : d.tree.mkdir path dirMode with
      | ok t' =>
        obtain ⟨loc, found, rfl⟩ := Tree.mkdir_eq_ok made
        refine .inr (.inr ⟨loc, rfl, found, ?_⟩)
        cases reopened : ({ d.tree with nodes := d.tree.nodes ++ [(loc, .dir dirMode)] } : Tree).openDir path with
        | ok _ => exact .inl (by simp [enter, opened, made, reopened, withDirs])
        | error e => exact .inr ⟨e, by simp [enter, opened, made, reopened, withDirs]⟩
      | error e' =>
        refine .inr (.inl ?_)
        cases e' <;> simp [enter, opened, made]
    · refine .inr (.inl ⟨e, ?_⟩)
      cases e <;> cases create <;> simp_all [enter]

theorem enter_spec (d : Disk) (level : Level) :
    ∃ created, MadeAlong d.tree [level] created ∧ (enter d level).1.tree = withDirs d.tree created ∧
      ((enter d level).2 = .ok () ∧ (enter d level).1.handles = d.handles.acquire ∨
        ∃ e, (enter d level).2 = .error (.directory level.1 e) ∧ (enter d level).1.handles = d.handles) := by
  obtain ⟨path, create⟩ := level
  rcases enter_cases d path create with entered | ⟨e, entered⟩ | ⟨loc, rfl, found, entered | ⟨e, entered⟩⟩
  all_goals rw [entered]
  · exact ⟨[], .kept (.nil _), (withDirs_nil _).symm, .inl ⟨rfl, rfl⟩⟩
  · exact ⟨[], .kept (.nil _), (withDirs_nil _).symm, .inr ⟨e, rfl, rfl⟩⟩
  · exact ⟨[loc], .made found (.nil _), rfl, .inl ⟨rfl, rfl⟩⟩
  · exact ⟨[loc], .made found (.nil _), rfl, .inr ⟨e, rfl, rfl⟩⟩

theorem enterAll_spec (d : Disk) (ls : List Level) :
    (enterAll d ls).2.1 ≤ ls.length ∧
    (enterAll d ls).1.handles = ⟨d.handles.live + (enterAll d ls).2.1, d.handles.total + (enterAll d ls).2.1⟩ ∧
    ((enterAll d ls).2.2 = .ok () ∧ (enterAll d ls).2.1 = ls.length ∨
      ∃ p c e, ls[(enterAll d ls).2.1]? = some (p, c) ∧ (enterAll d ls).2.2 = .error (.directory p e)) ∧
    ∃ created, MadeAlong d.tree (ls.take ((enterAll d ls).2.1 + 1)) created ∧
      (enterAll d ls).1.tree = withDirs d.tree created := by
  induction ls generalizing d with
  | nil => exact ⟨Nat.le_refl _, rfl, .inl ⟨rfl, rfl⟩, [], .nil _, by simp [enterAll]⟩
  | cons level ls ih =>
    obtain ⟨first, madeFirst, treeFirst, outcome⟩ := enter_spec d level
    generalize entered : enter d level = step at treeFirst outcome
    obtain ⟨d', r⟩ := step
    rcases outcome with ⟨opened, acquired⟩ | ⟨e, failed, kept⟩
    · simp only at opened acquired treeFirst
      subst opened
      obtain ⟨bound, handles, result, rest, madeRest, treeRest⟩ := ih d'
      simp only [enterAll, entered]
      generalize enterAll d' ls = walked at *
      obtain ⟨d'', n, r⟩ := walked
      simp only at bound handles result madeRest treeRest ⊢
      refine ⟨by simpa using bound, ?_, ?_, first ++ rest, ?_, by rw [treeRest, treeFirst, withDirs_append]⟩
      · rw [handles, acquired]
        simp only [Handles.acquire]
        congr 1 <;> omega
      · rcases result with ⟨finished, all⟩ | ⟨p, c, e, failing, stopped⟩
        · exact .inl ⟨finished, by simp [all]⟩
        · exact .inr ⟨p, c, e, by simpa using failing, stopped⟩
      · rw [List.take_succ_cons]
        have joined : MadeAlong d.tree ([level] ++ ls.take (n + 1)) (first ++ rest) :=
          MadeAlong.append madeFirst (treeFirst ▸ madeRest)
        exact joined
    · simp only at failed kept treeFirst
      subst failed
      simp only [enterAll, entered]
      exact ⟨Nat.zero_le _, by simp [kept], .inr ⟨level.1, level.2, e, rfl, rfl⟩, first, madeFirst, treeFirst⟩

/-- What a store call that walks down `ls` does to the disk: every handle it
opened is released; the count of handles ever opened grows by the number of
levels it opened, which are all of them or those before the level it failed
at; and a failed call leaves behind only the directories it made for the
levels up to that one. -/
structure WalkFrame {α : Type} (d : Disk) (ls : List Level) (d' : Disk) (r : Except StoreError α) : Prop where
  released : d'.handles.live = d.handles.live
  counted : ∃ n ≤ ls.length, d'.handles.total = d.handles.total + n ∧
    (n = ls.length ∨ ∃ p c e, ls[n]? = some (p, c) ∧ r = .error (.directory p e)) ∧
    ∃ created, MadeAlong d.tree (ls.take (n + 1)) created ∧ ∀ e, r = .error e → d'.tree = withDirs d.tree created

structure LeafFrame {α : Type} (leaf : Disk → String → Disk × Except StoreError α) : Prop where
  handles : ∀ d p, (leaf d p).1.handles = d.handles
  fails : ∀ d p e, (leaf d p).2 = .error e → (leaf d p).1.tree = d.tree

theorem withLevels_walkFrame {α : Type} (d : Disk) (ls : List Level) {leaf : Disk → String → Disk × Except StoreError α}
    (frame : LeafFrame leaf) : WalkFrame d ls (withLevels d ls leaf).1 (withLevels d ls leaf).2 := by
  obtain ⟨bound, handles, result, created, made, tree⟩ := enterAll_spec d ls
  simp only [withLevels]
  generalize enterAll d ls = walked at *
  obtain ⟨d1, n, r⟩ := walked
  simp only at bound handles result made tree ⊢
  rcases result with ⟨rfl, all⟩ | ⟨p, c, e, failing, rfl⟩
  · refine ⟨?_, n, bound, ?_, .inl all, created, made, fun e failed => ?_⟩
    · simp [Handles.release, frame.handles, handles]
    · simp [Handles.release, frame.handles, handles]
    · rw [frame.fails _ _ _ failed, tree]
  · exact ⟨by simp [Handles.release, handles], n, bound, by simp [Handles.release, handles],
      .inr ⟨p, c, e, failing, rfl⟩, created, made, fun _ _ => tree⟩

theorem WalkFrame.of_errors {α β : Type} {d d' : Disk} {ls : List Level} {r : Except StoreError α}
    {r' : Except StoreError β} (frame : WalkFrame d ls d' r) (same : ∀ e, r' = .error e ↔ r = .error e) :
    WalkFrame d ls d' r' := by
  obtain ⟨released, n, bound, total, stop, created, made, tree⟩ := frame
  refine ⟨released, n, bound, total, ?_, created, made, fun e failed => tree e ((same e).mp failed)⟩
  rcases stop with all | ⟨p, c, e, failing, failed⟩
  · exact .inl all
  · exact .inr ⟨p, c, e, failing, (same _).mpr failed⟩

theorem writeLeaf_cases (d : Disk) (path : String) (bytes : List UInt8) :
    (∃ t, writeLeaf d path bytes = ({ d with tree := t }, .ok ())) ∨ ∃ e, writeLeaf d path bytes = (d, .error e) := by
  unfold writeLeaf
  split
  · exact .inl ⟨_, rfl⟩
  · exact .inr ⟨_, rfl⟩

theorem writeLeaf_leafFrame {α : Type} (path : Disk → String → String) (bytes : Disk → List UInt8)
    (named : String → α) :
    LeafFrame fun d dir =>
      (match writeLeaf d (path d dir) (bytes d) with
        | (d, .ok ()) => (d, .ok (named dir))
        | (d, .error e) => (d, .error e) : Disk × Except StoreError α) := by
  constructor
  all_goals
    intro d dir
    rcases writeLeaf_cases d (path d dir) (bytes d) with ⟨t, written⟩ | ⟨e, written⟩ <;> simp [written]

/-! Objects. -/

namespace DiskStore

theorem persist_of_invalidNamespace (s : DiskStore) (d : Disk) {ns : String} (name : String)
    (content : List UInt8) (bad : validNamespace ns = false) :
    s.persist d ns name content = (d, .error (.invalidName ns)) := by
  simp [persist, bad]

theorem persist_of_invalidName (s : DiskStore) (d : Disk) {ns name : String} (content : List UInt8)
    (good : validNamespace ns = true) (bad : validName name = false) :
    s.persist d ns name content = (d, .error (.invalidName name)) := by
  simp [persist, good, bad]

theorem persist_walkFrame (s : DiskStore) (d : Disk) {ns name : String} (content : List UInt8)
    (goodSpace : validNamespace ns = true) (goodName : validName name = true) :
    WalkFrame d (levels s.root [objectsDir, ns, String.ofList (name.toList.take 2)])
      (s.persist d ns name content).1 (s.persist d ns name content).2 := by
  simp only [persist, goodSpace, goodName, Bool.not_true, Bool.false_eq_true, if_false]
  exact withLevels_walkFrame _ _ (writeLeaf_leafFrame _ (fun _ => content) fun _ => name)

end DiskStore

theorem length_toList_toUTF8 (s : String) : s.toUTF8.toList.length = s.utf8ByteSize := by
  simp [ByteArray.toList, Text.toList_loop]

theorem storeNamespace_valid (a : HashAlg) : DiskStore.validNamespace a.storeNamespace = true := by
  cases a <;> decide

theorem utf8ByteSize_toHex (g : Gitoid) : g.toHex.utf8ByteSize = g.alg.hexLen := by
  rw [← length_toList_toUTF8, Gitoid.toHex, Text.Hex.encode, Text.toList_toUTF8_ofList,
    Text.Hex.encodeChars_bytes, Text.Hex.length_flatMap_pairBytes, g.length_digest, HashAlg.hexLen]

theorem isHexDigit_of_mem_encode {bs : List UInt8} {c : Char} (mem : c ∈ (Text.Hex.encode bs).toList) :
    (c.isDigit || ('a' ≤ c && c ≤ 'f')) = true := by
  have table : ∀ m < 16,
      ((Text.Hex.digitChar m).isDigit || ('a' ≤ Text.Hex.digitChar m && Text.Hex.digitChar m ≤ 'f')) = true := by
    decide
  simp only [Text.Hex.encode, String.toList_ofList, Text.Hex.encodeChars] at mem
  obtain ⟨b, -, inPair⟩ := List.mem_flatMap.mp mem
  obtain ⟨high, low⟩ := Text.Hex.halves_lt b
  simp only [Text.Hex.pair, List.mem_cons, List.not_mem_nil, or_false] at inPair
  rcases inPair with rfl | rfl
  · exact table _ high
  · exact table _ low

theorem toHex_valid (g : Gitoid) : DiskStore.validName g.toHex = true := by
  have long : 2 < g.alg.hexLen := by cases g.alg <;> decide
  simp only [DiskStore.validName, utf8ByteSize_toHex, Bool.and_eq_true, decide_eq_true_eq, List.all_eq_true]
  exact ⟨long, fun c mem => isHexDigit_of_mem_encode mem⟩

-- The shard and the rest are the first byte's two digits and those of the others.
theorem digest_cons (g : Gitoid) : ∃ b rest, g.digest = b :: rest := by
  have : 0 < g.digest.length := by rw [g.length_digest]; cases g.alg <;> decide
  exact List.exists_cons_of_length_pos this

theorem shard_of_toHex (g : Gitoid) : String.ofList (g.toHex.toList.take 2) = g.shardPrefix := by
  obtain ⟨b, rest, split⟩ := digest_cons g
  simp [Gitoid.toHex, Gitoid.shardPrefix, Text.Hex.encode, Text.Hex.encodeChars, Text.Hex.pair, split]

theorem rest_of_toHex (g : Gitoid) : String.ofList (g.toHex.toList.drop 2) = g.shardSuffix := by
  obtain ⟨b, rest, split⟩ := digest_cons g
  simp [Gitoid.toHex, Gitoid.shardSuffix, Text.Hex.encode, Text.Hex.encodeChars, Text.Hex.pair, split]

/-- The levels writing an object walks: the root's, then `objects`, the
algorithm's namespace and the shard. -/
def objectLevels (s : DiskStore) (id : Gitoid) : List Level :=
  levels s.root [objectsDir, id.alg.storeNamespace, id.shardPrefix]

theorem DiskStore.write_walkFrame (s : DiskStore) (d : Disk) (doc : Document) :
    WalkFrame d (objectLevels s doc.gitoid) (s.write d doc).1 (s.write d doc).2 := by
  have walked := s.persist_walkFrame d (Text.Utf8.encode doc.text) (storeNamespace_valid doc.gitoid.alg)
    (toHex_valid doc.gitoid)
  rw [shard_of_toHex] at walked
  simp only [DiskStore.write]
  generalize s.persist d _ _ _ = stored at walked ⊢
  obtain ⟨d', r⟩ := stored
  cases r <;> exact walked.of_errors fun e => by simp

/-! Metadata. -/

theorem recordMetadata_of_no_output (d : Disk) (root : String) (alg : HashAlg) {ctx : BuildContext}
    {primaryInput : Option String} (records : List DepRecord) (absent : ctx.resolveOutput primaryInput = none) :
    recordMetadata d root alg ctx primaryInput records = (d, .ok none) := by
  simp [recordMetadata, absent]

theorem recordMetadata_of_unnamed (d : Disk) (root : String) (alg : HashAlg) {ctx : BuildContext}
    {primaryInput : Option String} {output : String} (records : List DepRecord)
    (resolved : ctx.resolveOutput primaryInput = some output) (unnamed : Files.fileName output = none) :
    recordMetadata d root alg ctx primaryInput records = (d, .error (.invalidName output)) := by
  simp [recordMetadata, resolved, metadataFileName, unnamed]

theorem recordMetadata_walkFrame (d : Disk) (root : String) (alg : HashAlg) {ctx : BuildContext}
    {primaryInput : Option String} {output name : String} (records : List DepRecord)
    (resolved : ctx.resolveOutput primaryInput = some output) (named : Files.fileName output = some name) :
    WalkFrame d (levels root [metadataDir, producerDir, alg.storeNamespace])
      (recordMetadata d root alg ctx primaryInput records).1 (recordMetadata d root alg ctx primaryInput records).2 := by
  simp only [recordMetadata, resolved, metadataFileName, named]
  exact withLevels_walkFrame _ _ (writeLeaf_leafFrame _ _ fun dir => some (join dir (name ++ ".metadata")))

theorem recordMetadata_live (d : Disk) (root : String) (alg : HashAlg) (ctx : BuildContext)
    (primaryInput : Option String) (records : List DepRecord) :
    (recordMetadata d root alg ctx primaryInput records).1.handles.live = d.handles.live := by
  cases resolved : ctx.resolveOutput primaryInput with
  | none => rw [recordMetadata_of_no_output d root alg records resolved]
  | some output =>
    cases named : Files.fileName output with
    | none => rw [recordMetadata_of_unnamed d root alg records resolved named]
    | some name => exact (recordMetadata_walkFrame d root alg records resolved named).released

end Provenance.Store

namespace Provenance

open Store

/-! Sessions. -/

theorem ObjectStore.write_live (s : ObjectStore) (d : Disk) (doc : Document) :
    (s.write d doc).2.1.handles.live = d.handles.live := by
  cases s with
  | disk ds => exact (ds.write_walkFrame d doc).released
  | memory ms => rfl

theorem Session.record_live (s : Session) (d : Disk) (ctx : BuildContext) (alg : HashAlg) :
    (s.record d ctx alg).2.1.handles.live = d.handles.live := by
  unfold Session.record
  split
  · rfl
  · rename_i doc sc _
    have stored := s.store.write_live d doc
    generalize s.store.write d doc = written at stored ⊢
    obtain ⟨store, d1, r⟩ := written
    cases r with
    | error e => exact stored
    | ok id =>
      have recorded := recordMetadata_live d1 s.config.root alg ctx s.ledger.primaryInput sc.records
      simp only
      generalize recordMetadata d1 _ _ _ _ _ = written at recorded ⊢
      obtain ⟨d2, r⟩ := written
      cases r <;> simpa using recorded.trans stored

theorem Session.finishWith_live (ctx : BuildContext) (s : Session) (d : Disk) (algs : List HashAlg) :
    (finishWith ctx s d algs).2.1.handles.live = d.handles.live := by
  induction algs generalizing s d with
  | nil => rfl
  | cons alg rest ih =>
    have first := s.record_live d ctx alg
    simp only [finishWith]
    generalize s.record d ctx alg = step at first ⊢
    obtain ⟨s1, d1, r⟩ := step
    simpa using (ih s1 d1).trans first

theorem Session.finish_live (s : Session) (d : Disk) (ctx : BuildContext) :
    (s.finish d ctx).2.1.handles.live = d.handles.live :=
  finishWith_live ctx s d s.config.algorithms

-- Every store call returns with as many directory handles open as on entry. Storing bytes refuses a
-- bad namespace or object name, and recording metadata an output without a file name, before
-- touching the disk; otherwise each call is a walk down its levels: the root's, then `objects`, the
-- namespace and the shard, or `metadata`, `gnu` and the namespace. Finishing a session, which
-- stores and records for every algorithm, also releases all it opened.
theorem store_calls_release_handles :
    (∀ (s : DiskStore) (d : Disk) (ns name : String) (content : List UInt8),
      (DiskStore.validNamespace ns = false → s.persist d ns name content = (d, .error (.invalidName ns))) ∧
      (DiskStore.validNamespace ns = true → DiskStore.validName name = false →
        s.persist d ns name content = (d, .error (.invalidName name))) ∧
      (DiskStore.validNamespace ns = true → DiskStore.validName name = true →
        WalkFrame d (levels s.root [objectsDir, ns, String.ofList (name.toList.take 2)])
          (s.persist d ns name content).1 (s.persist d ns name content).2)) ∧
    (∀ (s : DiskStore) (d : Disk) (doc : Document),
      WalkFrame d (objectLevels s doc.gitoid) (s.write d doc).1 (s.write d doc).2) ∧
    (∀ (d : Disk) (root : String) (alg : HashAlg) (ctx : BuildContext) (primaryInput : Option String)
        (records : List DepRecord),
      (ctx.resolveOutput primaryInput = none → recordMetadata d root alg ctx primaryInput records = (d, .ok none)) ∧
      (∀ output, ctx.resolveOutput primaryInput = some output → Files.fileName output = none →
        recordMetadata d root alg ctx primaryInput records = (d, .error (.invalidName output))) ∧
      (∀ output name, ctx.resolveOutput primaryInput = some output → Files.fileName output = some name →
        WalkFrame d (levels root [metadataDir, producerDir, alg.storeNamespace])
          (recordMetadata d root alg ctx primaryInput records).1
          (recordMetadata d root alg ctx primaryInput records).2)) ∧
    ∀ (s : Session) (d : Disk) (ctx : BuildContext), (s.finish d ctx).2.1.handles.live = d.handles.live :=
  ⟨fun s d _ name content =>
      ⟨s.persist_of_invalidNamespace d name content, s.persist_of_invalidName d content, s.persist_walkFrame d content⟩,
    DiskStore.write_walkFrame,
    fun d root alg _ _ records =>
      ⟨recordMetadata_of_no_output d root alg records, fun _ => recordMetadata_of_unnamed d root alg records,
        fun _ _ => recordMetadata_walkFrame d root alg records⟩,
    Session.finish_live⟩

end Provenance
