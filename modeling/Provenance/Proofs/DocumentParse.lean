import Provenance.Proofs.DocumentBuild
import Provenance.Proofs.HexRoundTrip
/-!
Reading a document text is the inverse of writing one. The written text is a
header and then lines `blob <hex>`, each ended by a line feed; none of them
holds a line feed or a carriage return, so splitting the body at line feeds
gives the lines back, with nothing for the CR stripping to remove. Each line
reads back as its gitoid, the entries are already ascending, and the rebuilt
text is the text read. In the other direction the final comparison with the
rebuilt text does the work: whatever the earlier checks let through, only a
text that building produces survives it.
-/

namespace Provenance.Document

open Text

def lineChars (g : Gitoid) : List Char := entryPrefix.toList ++ Hex.encodeChars g.digest

def bodyChars (gs : List Gitoid) : List Char := (gs.map lineChars).flatMap (· ++ ['\n'])

theorem text_toList (d : Document) : d.text.toList = d.alg.header.toList ++ bodyChars d.entries := by
  simp [text, bodyChars, entryLine, lineChars, Gitoid.toHex, Hex.encode, List.flatMap_map]

theorem not_line_end_of_mem_lineChars {c : Char} {g : Gitoid} (mem : c ∈ lineChars g) :
    c ≠ '\n' ∧ c ≠ '\r' := by
  rcases List.mem_append.mp mem with inPrefix | inHex
  · have chars : entryPrefix.toList = ['b', 'l', 'o', 'b', ' '] := by decide
    rw [chars] at inPrefix
    simp only [List.mem_cons, List.not_mem_nil, or_false] at inPrefix
    rcases inPrefix with rfl | rfl | rfl | rfl | rfl <;> decide
  · exact Hex.not_line_end_of_mem_encodeChars inHex

theorem find_header (a : HashAlg) (rest : List Char) :
    HashAlg.all.find? (fun b => b.header.toList.isPrefixOf (a.header.toList ++ rest)) = some a := by
  cases a <;> simp [HashAlg.all, HashAlg.header, HashAlg.name]

theorem bodyChars_ends (gs : List Gitoid) : bodyChars gs = [] ∨ (bodyChars gs).getLast? = some '\n' := by
  rcases List.eq_nil_or_concat gs with rfl | ⟨init, last, rfl⟩
  · exact .inl rfl
  · exact .inr (by simp [bodyChars])

theorem splitOn_lines (ls : List (List Char)) (clean : ∀ l ∈ ls, '\n' ∉ l) :
    (ls.flatMap (· ++ ['\n'])).splitOn '\n' = ls ++ [[]] := by
  induction ls with
  | nil => rfl
  | cons l rest ih =>
    have restClean : ∀ l ∈ rest, '\n' ∉ l := fun l mem => clean l (List.mem_cons_of_mem _ mem)
    rw [List.flatMap_cons, List.append_assoc, List.singleton_append,
      List.splitOn_append_cons_self_of_not_mem (clean l List.mem_cons_self), ih restClean]
    rfl

-- No written line ends in a carriage return, so the CR stripping of line
-- reading leaves every line as it is.
theorem bodyLines_bodyChars (gs : List Gitoid) : bodyLines (bodyChars gs) = gs.map lineChars := by
  have clean : ∀ l ∈ gs.map lineChars, '\n' ∉ l := by
    intro l mem inLine
    obtain ⟨g, -, rfl⟩ := List.mem_map.mp mem
    exact (not_line_end_of_mem_lineChars inLine).1 rfl
  have noCR : ∀ l ∈ gs.map lineChars, l.getLast? ≠ some '\r' := by
    intro l mem last
    obtain ⟨g, -, rfl⟩ := List.mem_map.mp mem
    exact (not_line_end_of_mem_lineChars (List.mem_of_getLast? last)).2 rfl
  rw [bodyLines, bodyChars, splitOn_lines _ clean, List.dropLast_concat]
  rw [List.map_congr_left (fun l mem => if_neg (noCR l mem)), List.map_id']

theorem readEntries_lineChars (a : HashAlg) (n : Nat) (gs : List Gitoid)
    (uniform : ∀ g ∈ gs, g.alg = a) : readEntries a n (gs.map lineChars) = .ok gs := by
  induction gs generalizing n with
  | nil => rfl
  | cons g rest ih =>
    have restUniform : ∀ h ∈ rest, h.alg = a := fun h mem => uniform h (List.mem_cons_of_mem _ mem)
    have hex : (lineChars g).drop entryPrefix.length = Hex.encodeChars g.digest := by
      simp [lineChars, ← String.length_toList]
    have prefixed : entryPrefix.toList.isPrefixOf (lineChars g) = true :=
      List.isPrefixOf_iff_prefix.mpr (List.prefix_append _ _)
    have read : Gitoid.ofHex a (String.ofList (Hex.encodeChars g.digest)) = .ok g := by
      rw [← uniform g List.mem_cons_self]
      exact Gitoid.ofHex_toHex g
    simp [readEntries, prefixed, hex, read, ih (n + 1) restUniform, Except.map]

-- Every check of reading passes on a written text, in the order reading makes them.
theorem parse_text {d : Document} (uniform : ∀ g ∈ d.entries, g.alg = d.alg)
    (sorted : Ascending d.entries) : parse d.text = .ok d := by
  have body : (d.alg.header.toList ++ bodyChars d.entries).drop d.alg.header.length =
      bodyChars d.entries := by
    rw [← String.length_toList, List.drop_left]
  have ends : ¬ (bodyChars d.entries ≠ [] ∧ (bodyChars d.entries).getLast? ≠ some '\n') := by
    rcases bodyChars_ends d.entries with empty | last
    · exact fun ⟨nonempty, _⟩ => nonempty empty
    · exact fun ⟨_, notLast⟩ => notLast last
  have rebuilt : ofGitoids d.alg d.entries = .ok d := by
    rw [ofGitoids_of_uniform uniform, sortGitoids_of_ascending sorted]
  rw [parse, text_toList, find_header]
  simp only [body, ends, if_false, bodyLines_bodyChars, readEntries_lineChars _ _ _ uniform,
    ascending_of_pairwise sorted, Bool.not_true, rebuilt]
  simp

theorem rebuilt_of_parse {t : String} {d : Document} (parsed : parse t = .ok d) :
    ∃ alg entries, ofGitoids alg entries = .ok d ∧ d.text = t := by
  unfold parse at parsed
  split at parsed
  · cases parsed
  · dsimp only at parsed
    split at parsed
    · cases parsed
    · split at parsed
      · cases parsed
      · split at parsed
        · cases parsed
        · split at parsed
          · cases parsed
          · rename_i built
            split at parsed
            · cases parsed
              exact ⟨_, _, built, ‹_›⟩
            · cases parsed

-- A document is what building makes of its own entries exactly when they all
-- have its algorithm and are ascending.
theorem ofGitoids_self_iff {d : Document} :
    ofGitoids d.alg d.entries = .ok d ↔ (∀ g ∈ d.entries, g.alg = d.alg) ∧ Ascending d.entries := by
  rw [ofGitoids_eq_ok_iff]
  constructor
  · rintro ⟨uniform, same⟩
    have sorted : sortGitoids d.entries = d.entries := (congrArg entries same).symm
    exact ⟨uniform, sorted ▸ sortGitoids_ascending d.entries⟩
  · rintro ⟨uniform, sorted⟩
    exact ⟨uniform, by rw [sortGitoids_of_ascending sorted]⟩

theorem ofGitoids_self_of_eq_ok {a : HashAlg} {gs : List Gitoid} {d : Document}
    (built : ofGitoids a gs = .ok d) : ofGitoids d.alg d.entries = .ok d := by
  obtain ⟨uniform, rfl⟩ := ofGitoids_eq_ok_iff.mp built
  refine ofGitoids_self_iff.mpr ⟨fun g mem => uniform g ((sortGitoids_perm gs).mem_iff.mp mem), ?_⟩
  exact sortGitoids_ascending gs

end Provenance.Document

namespace Provenance

theorem parse_inverts_ofGitoids :
    (∀ (a : HashAlg) (gs : List Gitoid), (∀ g ∈ gs, g.alg = a) →
      ∃ d, Document.ofGitoids a gs = .ok d ∧ Document.parse d.text = .ok d) ∧
    (∀ (t : String) (d : Document),
      Document.parse t = .ok d ↔ Document.ofGitoids d.alg d.entries = .ok d ∧ d.text = t) := by
  refine ⟨?rendered, ?read⟩
  case rendered =>
    intro a gs uniform
    have built := Document.ofGitoids_of_uniform uniform
    refine ⟨_, built, Document.parse_text ?_ (Document.sortGitoids_ascending gs)⟩
    exact (Document.ofGitoids_self_iff.mp (Document.ofGitoids_self_of_eq_ok built)).1
  case read =>
    intro t d
    constructor
    · intro parsed
      obtain ⟨alg, entries, built, same⟩ := Document.rebuilt_of_parse parsed
      exact ⟨Document.ofGitoids_self_of_eq_ok built, same⟩
    · rintro ⟨built, rfl⟩
      obtain ⟨uniform, sorted⟩ := Document.ofGitoids_self_iff.mp built
      exact Document.parse_text uniform sorted

theorem parse_empty_blob_document :
    (∀ g ∈ [Gitoid.ofBlob .sha256 []], g.alg = .sha256) ∧
    ∃ d, Document.ofGitoids .sha256 [Gitoid.ofBlob .sha256 []] = .ok d ∧ Document.parse d.text = .ok d := by
  have uniform : ∀ g ∈ [Gitoid.ofBlob .sha256 []], g.alg = .sha256 := by
    simp [Gitoid.ofBlob]
  exact ⟨uniform, parse_inverts_ofGitoids.1 .sha256 _ uniform⟩

end Provenance
