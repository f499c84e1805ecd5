import Provenance.Bom.Document
/-!
The order documents sort their entries by. Digests compare byte by byte, which
is the standard lexicographic order of byte lists, so gitoids compare as the
pair of algorithm rank and digest. That pair order is total, transitive, and
ties only equal gitoids; sorting a list of gitoids therefore gives the one
ascending arrangement of its elements, whatever order they came in.
-/

namespace Provenance

open Std

theorem HashAlg.eq_of_rank_eq {a b : HashAlg} (same : a.rank = b.rank) : a = b := by
  cases a <;> cases b <;> simp_all [HashAlg.rank]

namespace Gitoid

theorem compareBytes_eq_compare (a b : List UInt8) : compareBytes a b = compare a b := by
  induction a generalizing b with
  | nil => cases b <;> rfl
  | cons x xs ih =>
    cases b with
    | nil => rfl
    | cons y ys =>
      rw [compareBytes, List.compare_cons_cons, ← ih]
      cases compare x y <;> rfl

-- Gitoids compare as the pair (algorithm rank, digest), so the laws of the
-- lexicographic pair order apply to them.
theorem cmp_eq_compareLex :
    cmp = compareLex (compareOn fun g : Gitoid => g.alg.rank) (compareOn fun g : Gitoid => g.digest) := by
  funext g h
  have byRank : compare g.alg h.alg = compare g.alg.rank h.alg.rank := rfl
  simp only [cmp, compareLex, compareOn, compareBytes_eq_compare, byRank]
  cases compare g.alg.rank h.alg.rank <;> rfl

instance : TransCmp cmp := by
  rw [cmp_eq_compareLex]
  infer_instance

theorem eq_of_cmp_eq {g h : Gitoid} (same : cmp g h = .eq) : g = h := by
  rw [cmp_eq_compareLex, compareLex_eq_eq] at same
  obtain ⟨rank, digest⟩ := same
  exact eq_iff.mpr ⟨HashAlg.eq_of_rank_eq (LawfulEqOrd.eq_of_compare rank),
    LawfulEqOrd.eq_of_compare digest⟩

theorem cmp_swap (g h : Gitoid) : cmp h g = (cmp g h).swap :=
  OrientedCmp.eq_swap

theorem le_eq_isLE (g h : Gitoid) : le g h = (cmp g h).isLE := by
  unfold le
  cases cmp g h <;> rfl

theorem le_trans {a b c : Gitoid} (first : le a b) (second : le b c) : le a c := by
  rw [le_eq_isLE] at *
  exact TransCmp.isLE_trans first second

theorem le_total (g h : Gitoid) : (le g h || le h g) = true := by
  rw [le_eq_isLE, le_eq_isLE, cmp_swap g h]
  cases cmp g h <;> rfl

theorem eq_of_le_of_le {g h : Gitoid} (below : le g h) (above : le h g) : g = h := by
  rw [le_eq_isLE] at below above
  exact eq_of_cmp_eq (OrientedCmp.isLE_antisymm below above)

end Gitoid

namespace Document

def Ascending (gs : List Gitoid) : Prop := gs.Pairwise fun g h => Gitoid.le g h

theorem sortGitoids_ascending (gs : List Gitoid) : Ascending (sortGitoids gs) :=
  @List.pairwise_mergeSort Gitoid Gitoid.le (fun _ _ _ => Gitoid.le_trans) Gitoid.le_total gs

theorem sortGitoids_perm (gs : List Gitoid) : (sortGitoids gs).Perm gs :=
  List.mergeSort_perm gs _

theorem sortGitoids_of_ascending {gs : List Gitoid} (sorted : Ascending gs) : sortGitoids gs = gs :=
  List.mergeSort_of_pairwise sorted

theorem sortGitoids_sortGitoids (gs : List Gitoid) : sortGitoids (sortGitoids gs) = sortGitoids gs :=
  sortGitoids_of_ascending (sortGitoids_ascending gs)

-- Two ascending arrangements of one multiset are equal, because only equal
-- gitoids tie; so sorting identifies exactly the lists that are permutations.
theorem sortGitoids_eq_iff_perm {gs hs : List Gitoid} :
    sortGitoids gs = sortGitoids hs ↔ gs.Perm hs := by
  constructor
  · intro same
    have left := (sortGitoids_perm gs).symm
    rw [same] at left
    exact left.trans (sortGitoids_perm hs)
  · intro perm
    apply List.Perm.eq_of_pairwise (fun _ _ _ _ => Gitoid.eq_of_le_of_le)
      (sortGitoids_ascending gs) (sortGitoids_ascending hs)
    exact (sortGitoids_perm gs).trans (perm.trans (sortGitoids_perm hs).symm)

theorem ascending_of_pairwise {gs : List Gitoid} (sorted : Ascending gs) : ascending gs = true := by
  induction gs with
  | nil => rfl
  | cons g rest ih =>
    cases rest with
    | nil => rfl
    | cons h tail =>
      have ⟨first, restSorted⟩ := List.pairwise_cons.mp sorted
      simp only [ascending, Bool.and_eq_true]
      exact ⟨first h List.mem_cons_self, ih restSorted⟩

end Document

end Provenance
