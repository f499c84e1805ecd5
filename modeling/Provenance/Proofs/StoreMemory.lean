import Provenance.Proofs.StoreRefinement
import Mathlib.Data.Finset.Card
/-!
The memory store files every document under the gitoid of its own text.
After any run of writes, with documents of any algorithms and repeats, it
holds under each written gitoid the text of the first document written with
that gitoid, and nothing else. Reads and membership answer from that, a check
returns that first document whole (never a hash mismatch or a malformed
document), and the store holds one object per distinct gitoid written.

A write answers its document's gitoid. Writing a document whose gitoid is
held changes nothing, and two writes under different gitoids leave the same
store in either order: the stored list differs only in the order of its
entries, which no read, membership test, check or count can see.
-/

namespace Provenance.Store

namespace MemoryStore

def firstWith (docs : List Document) (id : Gitoid) : Option Document := docs.find? (·.gitoid = id)

def ids (m : MemoryStore) : List Gitoid := m.objects.map (·.1)

theorem contains_iff_mem_ids (m : MemoryStore) (id : Gitoid) : m.contains id = true ↔ id ∈ m.ids := by
  simp [contains, ids]

theorem write_of_contains {m : MemoryStore} {d : Document} (held : m.contains d.gitoid = true) :
    m.write d = (m, d.gitoid) := by
  rw [write, if_pos held]

theorem write_gitoid (m : MemoryStore) (d : Document) : (m.write d).2 = d.gitoid := by
  by_cases held : m.contains d.gitoid
  · rw [write_of_contains held]
  · simp [write, held]

theorem size_write (m : MemoryStore) (d : Document) :
    (m.write d).1.size = m.size + if m.contains d.gitoid then 0 else 1 := by
  by_cases held : m.contains d.gitoid
  · simp [write_of_contains held, held]
  · simp [write, held, size]

theorem ids_nodup_write {m : MemoryStore} (nodup : m.ids.Nodup) (d : Document) : (m.write d).1.ids.Nodup := by
  by_cases held : m.contains d.gitoid
  · rwa [write_of_contains held]
  · have fresh : d.gitoid ∉ m.ids := fun mem => held ((contains_iff_mem_ids m _).mpr mem)
    have appended : (m.write d).1.ids = m.ids ++ [d.gitoid] := by simp [write, held, ids]
    rw [appended, List.nodup_append]
    refine ⟨nodup, List.nodup_singleton _, fun g mem g' last same => fresh ?_⟩
    rw [List.mem_singleton.mp last] at same
    exact same ▸ mem

-- Each write adds its text under its gitoid only where nothing is held, so a
-- read finds the store's own entry first, then the run's first document.
theorem read_writeAll_firstWith (m : MemoryStore) (docs : List Document) (id : Gitoid) :
    (m.writeAll docs).read id = (m.read id).or ((firstWith docs id).map fun d => Text.Utf8.encode d.text) := by
  induction docs generalizing m with
  | nil => simp [writeAll, firstWith]
  | cons d rest ih =>
    rw [writeAll, ih, read_write]
    by_cases same : id = d.gitoid
    · subst same
      simp [firstWith]
    · simp [firstWith, Ne.symm same, same]

theorem ids_nodup_writeAll {m : MemoryStore} (nodup : m.ids.Nodup) (docs : List Document) :
    (m.writeAll docs).ids.Nodup := by
  induction docs generalizing m with
  | nil => exact nodup
  | cons d rest ih => exact ih (ids_nodup_write nodup d)

theorem contains_writeAll_empty (docs : List Document) (id : Gitoid) :
    (writeAll {} docs).contains id = true ↔ ∃ d ∈ docs, d.gitoid = id := by
  rw [contains_writeAll]
  simp [contains]

theorem size_writeAll (docs : List Document) :
    (writeAll {} docs).size = (docs.map Document.gitoid).toFinset.card := by
  have nodup := ids_nodup_writeAll (m := {}) List.nodup_nil docs
  have same : (writeAll {} docs).ids.toFinset = (docs.map Document.gitoid).toFinset := by
    ext id
    rw [List.mem_toFinset, List.mem_toFinset, ← contains_iff_mem_ids, contains_writeAll_empty]
    simp
  rw [← same, List.toFinset_card_of_nodup nodup]
  simp [size, ids]

-- A check reads the bytes back and re-parses them; a document as the library
-- builds it parses from its own text, so the check returns it.
theorem verify_writeAll {docs : List Document} (canonical : ∀ d ∈ docs, Document.ofGitoids d.alg d.entries = .ok d)
    (id : Gitoid) : (writeAll {} docs).verify id = (firstWith docs id).elim (.error (.notFound id)) .ok := by
  cases first : firstWith docs id with
  | none =>
    have unread : (writeAll {} docs).read id = none := by
      rw [read_writeAll_firstWith, first]
      rfl
    simp [verify, unread, verifyBytes]
  | some d =>
    have named : d.gitoid = id := by simpa using List.find?_some first
    subst named
    have stored : (writeAll {} docs).read d.gitoid = some (Text.Utf8.encode d.text) := by
      rw [read_writeAll_firstWith, first]
      rfl
    exact verify_of_read stored (canonical d (List.mem_of_find?_eq_some first))

theorem read_write_comm (m : MemoryStore) {d d' : Document} (apart : d.gitoid ≠ d'.gitoid) :
    ((m.write d).1.write d').1.read = ((m.write d').1.write d).1.read := by
  funext id
  simp only [read_write]
  by_cases first : id = d.gitoid
  · subst first
    simp [apart]
  · by_cases second : id = d'.gitoid <;> simp [first, second, Ne.symm apart]

theorem size_write_comm (m : MemoryStore) {d d' : Document} (apart : d.gitoid ≠ d'.gitoid) :
    ((m.write d).1.write d').1.size = ((m.write d').1.write d).1.size := by
  simp only [size_write, contains_write, Ne.symm apart, apart, decide_false, Bool.or_false]
  omega

end MemoryStore

open MemoryStore

-- Over a run of writes from the empty store: what is held, what a check
-- returns and how many objects there are; then what one write does anywhere.
theorem memory_store_keeps_first_texts (docs : List Document)
    (canonical : ∀ d ∈ docs, Document.ofGitoids d.alg d.entries = .ok d) :
    let s := MemoryStore.writeAll {} docs
    (∀ id, s.read id = (firstWith docs id).map fun d => Text.Utf8.encode d.text) ∧
    (∀ id, s.contains id = true ↔ ∃ d ∈ docs, d.gitoid = id) ∧
    (∀ id, s.verify id = (firstWith docs id).elim (.error (.notFound id)) .ok) ∧
    s.size = (docs.map Document.gitoid).toFinset.card ∧
    (∀ d ∈ docs, s.write d = (s, d.gitoid)) ∧
    (∀ (m : MemoryStore) (d d' : Document), (m.write d).2 = d.gitoid ∧
      (d.gitoid ≠ d'.gitoid → ((m.write d).1.write d').1.read = ((m.write d').1.write d).1.read ∧
        ((m.write d).1.write d').1.size = ((m.write d').1.write d).1.size)) := by
  intro s
  refine ⟨fun id => ?_, contains_writeAll_empty docs, verify_writeAll canonical, size_writeAll docs, ?_, ?_⟩
  · rw [read_writeAll_firstWith]
    rfl
  · intro d mem
    exact write_of_contains ((contains_writeAll_empty docs d.gitoid).mpr ⟨d, mem, rfl⟩)
  · intro m d d'
    exact ⟨write_gitoid m d, fun apart => ⟨read_write_comm m apart, size_write_comm m apart⟩⟩

theorem mixed_run_keeps_first_texts :
    (∀ d ∈ ([⟨.sha1, []⟩, ⟨.sha256, []⟩, ⟨.sha1, []⟩] : List Document),
      Document.ofGitoids d.alg d.entries = .ok d) ∧
    let docs : List Document := [⟨.sha1, []⟩, ⟨.sha256, []⟩, ⟨.sha1, []⟩]
    let s := MemoryStore.writeAll {} docs
    (∀ id, s.read id = (firstWith docs id).map fun d => Text.Utf8.encode d.text) ∧
    (∀ id, s.contains id = true ↔ ∃ d ∈ docs, d.gitoid = id) ∧
    (∀ id, s.verify id = (firstWith docs id).elim (.error (.notFound id)) .ok) ∧
    s.size = (docs.map Document.gitoid).toFinset.card ∧
    (∀ d ∈ docs, s.write d = (s, d.gitoid)) ∧
    (∀ (m : MemoryStore) (d d' : Document), (m.write d).2 = d.gitoid ∧
      (d.gitoid ≠ d'.gitoid → ((m.write d).1.write d').1.read = ((m.write d').1.write d).1.read ∧
        ((m.write d).1.write d').1.size = ((m.write d').1.write d).1.size)) := by
  have canonical : ∀ d ∈ ([⟨.sha1, []⟩, ⟨.sha256, []⟩, ⟨.sha1, []⟩] : List Document),
      Document.ofGitoids d.alg d.entries = .ok d := by
    simp [Document.ofGitoids, Document.sortGitoids]
  exact ⟨canonical, memory_store_keeps_first_texts _ canonical⟩

end Provenance.Store
