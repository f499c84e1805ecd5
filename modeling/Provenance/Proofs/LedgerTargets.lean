import Provenance.Ledger.Ops
import Mathlib.Data.List.Rotate
/-!
The quote low-water mark. A ledger keeps its targets in one list and a mark
into it, and the mark splits the list: before it, the names added unquoted
since the last clear, in call order; from it on, the names added quoted, in
some order. Each name is as the vpath rules in force at its call rewrote it.
The target log below records those names by call order alone. An unquoted add
swaps the new name into the slot at the mark and moves that slot's name to the
back, so the front grows by the new name and the back turns by one place.
One step of the ledger and one step of the log keep the two in agreement, so
every run from the empty ledger does, whatever the interleaving of quoted and
unquoted adds, default targets, vpath rules, clears and snapshot restores; in
particular the mark never passes the end, so the slot the swap reads exists.
-/

namespace Provenance.Ledger

def SameTargets (l l' : Ledger) : Prop :=
  l'.targets = l.targets ∧ l'.quoteLwm = l.quoteLwm ∧ l'.vpath = l.vpath

theorem SameTargets.refl (l : Ledger) : SameTargets l l := ⟨rfl, rfl, rfl⟩

theorem SameTargets.trans {l l' l'' : Ledger} (first : SameTargets l l') (second : SameTargets l' l'') :
    SameTargets l l'' :=
  ⟨second.1.trans first.1, second.2.1.trans first.2.1, second.2.2.trans first.2.2⟩

theorem addModuleTarget_eq_ok_iff {l l' : Ledger} {name cmi : String} {isHeaderUnit : Bool} :
    l.addModuleTarget name cmi isHeaderUnit = .ok l' ↔
      l.moduleTarget = none ∧ l' = { l with moduleTarget := some ⟨name, cmi, isHeaderUnit⟩ } := by
  unfold addModuleTarget
  split <;> simp_all [eq_comm]

theorem addDependency_eq_ok_iff {l l' : Ledger} {path : String} :
    l.addDependency path = .ok l' ↔ path ≠ "" ∧ l' = { l with deps := l.deps ++ [l.vpath.apply path] } := by
  unfold addDependency
  split <;> simp_all [eq_comm]

theorem addModuleTarget_sameTargets {l l' : Ledger} {name cmi : String} {isHeaderUnit : Bool}
    (added : l.addModuleTarget name cmi isHeaderUnit = .ok l') : SameTargets l l' := by
  obtain ⟨-, rfl⟩ := addModuleTarget_eq_ok_iff.mp added
  exact SameTargets.refl l

theorem addDependency_sameTargets {l l' : Ledger} {path : String} (added : l.addDependency path = .ok l') :
    SameTargets l l' := by
  obtain ⟨-, rfl⟩ := addDependency_eq_ok_iff.mp added
  exact SameTargets.refl l

-- A restore adds its records by one `addDependency` call each, so it keeps
-- every reflexive, transitive relation that such a call keeps.
theorem restoreRecords_keeps (R : Ledger → Ledger → Prop) (refl : ∀ l, R l l)
    (trans : ∀ {l l' l''}, R l l' → R l' l'' → R l l'')
    (recorded : ∀ {l l' path}, l.addDependency path = .ok l' → R l l')
    (self : Option String) (index count : Nat) (bs : List UInt8) (l : Ledger) (added : Nat) :
    R l (Snapshot.restoreRecords self index count bs l added).1 := by
  induction count generalizing index bs l added with
  | zero => exact refl l
  | succ count ih =>
    rw [Snapshot.restoreRecords]
    split
    · exact refl l
    · dsimp only
      split
      · exact refl l
      · split
        · exact refl l
        · split
          · exact refl l
          · split
            · split
              · split
                · exact refl l
                · rename_i added
                  exact trans (recorded added) (ih _ _ _ _)
              · exact ih _ _ _ _
            · exact ih _ _ _ _

theorem restore_keeps (R : Ledger → Ledger → Prop) (refl : ∀ l, R l l)
    (trans : ∀ {l l' l''}, R l l' → R l' l'' → R l l'')
    (recorded : ∀ {l l' path}, l.addDependency path = .ok l' → R l l')
    (l : Ledger) (bs : List UInt8) (self : Option String) : R l (Snapshot.restore l bs self).1 := by
  unfold Snapshot.restore
  split
  · exact refl l
  · exact restoreRecords_keeps R refl trans recorded self 0 _ _ l 0

theorem restore_sameTargets (l : Ledger) (bs : List UInt8) (self : Option String) :
    SameTargets l (Snapshot.restore l bs self).1 :=
  restore_keeps SameTargets SameTargets.refl SameTargets.trans addDependency_sameTargets l bs self

/-! What one add does to the targets and the mark. -/

@[simp] theorem addTarget_vpath (l : Ledger) (name : String) (quote : Bool) :
    (l.addTarget name quote).vpath = l.vpath := by
  unfold addTarget
  split
  · rfl
  · split
    · rfl
    · split <;> rfl

theorem addTarget_quoted (l : Ledger) (name : String) :
    l.addTarget name true = { l with targets := l.targets ++ [l.vpath.apply name] } := rfl

-- With the mark inside the list, the swap puts the new name in the slot at the
-- mark and that slot's name at the back: the back turns by one place.
theorem addTarget_unquoted {l : Ledger} (mark : l.quoteLwm ≤ l.targets.length) (name : String) :
    (l.addTarget name false).targets =
        l.targets.take l.quoteLwm ++ l.vpath.apply name :: (l.targets.drop l.quoteLwm).rotate 1 ∧
      (l.addTarget name false).quoteLwm = l.quoteLwm + 1 := by
  unfold addTarget
  simp only [Bool.false_eq_true, if_false]
  split
  · rename_i atEnd
    simp [atEnd]
  · rename_i notEnd
    have inside : l.quoteLwm < l.targets.length := by omega
    rw [List.getElem?_eq_getElem inside]
    refine ⟨?_, rfl⟩
    rw [List.set_eq_take_append_cons_drop, if_pos inside, List.drop_eq_getElem_cons inside,
      List.rotate_cons_succ, List.rotate_zero]
    simp

/-- The targets added since the last clear, by call order alone: the names
added unquoted, the names added quoted, and the vpath rules in force. -/
structure TargetLog where
  vpath : Vpath := {}
  unquoted : List String := []
  quoted : List String := []

namespace TargetLog

def record (log : TargetLog) : Op → TargetLog
  | .addTarget name quote =>
    if quote then { log with quoted := log.quoted ++ [log.vpath.apply name] }
    else { log with unquoted := log.unquoted ++ [log.vpath.apply name] }
  | .addDefaultTarget name =>
    if log.unquoted = [] ∧ log.quoted = [] then
      { log with quoted := [if name = "" then "-" else log.vpath.apply (objectName name)] }
    else log
  | .addVpath spec => { log with vpath := log.vpath.addSpec spec }
  | .clear => {}
  | _ => log

def replay (log : TargetLog) (ops : List Op) : TargetLog := ops.foldl record log

end TargetLog

/-- A ledger holds what a log says: the same vpath rules, the mark at the
number of unquoted names, those names in call order before it, and the quoted
names in some order from it on. -/
structure Agrees (l : Ledger) (log : TargetLog) : Prop where
  vpath_eq : l.vpath = log.vpath
  mark_eq : l.quoteLwm = log.unquoted.length
  front_eq : l.targets.take l.quoteLwm = log.unquoted
  back_perm : (l.targets.drop l.quoteLwm).Perm log.quoted

theorem Agrees.mark_le {l : Ledger} {log : TargetLog} (agree : Agrees l log) :
    l.quoteLwm ≤ l.targets.length := by
  have front := congrArg List.length agree.front_eq
  rw [List.length_take, ← agree.mark_eq] at front
  omega

theorem Agrees.of_sameTargets {l l' : Ledger} {log : TargetLog} (agree : Agrees l log)
    (same : SameTargets l l') : Agrees l' log := by
  obtain ⟨targets, mark, vpath⟩ := same
  exact ⟨vpath.trans agree.vpath_eq, mark.trans agree.mark_eq, by rw [targets, mark]; exact agree.front_eq,
    by rw [targets, mark]; exact agree.back_perm⟩

theorem Agrees.targets_eq_nil_iff {l : Ledger} {log : TargetLog} (agree : Agrees l log) :
    l.targets = [] ↔ log.unquoted = [] ∧ log.quoted = [] := by
  rw [← List.take_append_drop l.quoteLwm l.targets, List.append_eq_nil_iff, agree.front_eq]
  refine and_congr_right fun _ => ?_
  rw [← List.length_eq_zero_iff, agree.back_perm.length_eq, List.length_eq_zero_iff]

theorem Agrees.empty : Agrees {} {} := ⟨rfl, rfl, rfl, List.Perm.refl _⟩

theorem addTarget_agrees {l : Ledger} {log : TargetLog} (agree : Agrees l log) (name : String)
    (quote : Bool) : Agrees (l.addTarget name quote) (log.record (.addTarget name quote)) := by
  have applied : l.vpath.apply name = log.vpath.apply name := by rw [agree.vpath_eq]
  have mark := agree.mark_le
  cases quote with
  | true =>
    -- the new name joins the back and the mark stays
    rw [addTarget_quoted]
    refine ⟨agree.vpath_eq, agree.mark_eq, ?_, ?_⟩
    · rw [List.take_append_of_le_length mark]
      exact agree.front_eq
    · rw [List.drop_append_of_le_length mark, applied]
      exact agree.back_perm.append_right _
  | false =>
    -- the new name joins the front and the back turns by one place
    obtain ⟨targets, moved⟩ := addTarget_unquoted mark name
    have front : (l.targets.take l.quoteLwm ++ [l.vpath.apply name]).length = l.quoteLwm + 1 := by
      rw [List.length_append, List.length_take_of_le mark, List.length_singleton]
    have regroup : l.targets.take l.quoteLwm ++ l.vpath.apply name :: (l.targets.drop l.quoteLwm).rotate 1 =
        (l.targets.take l.quoteLwm ++ [l.vpath.apply name]) ++ (l.targets.drop l.quoteLwm).rotate 1 := by
      simp
    refine ⟨by simp [agree.vpath_eq, TargetLog.record], by simp [moved, agree.mark_eq, TargetLog.record], ?_, ?_⟩
    · rw [targets, moved, regroup, List.take_left' front, agree.front_eq, applied]
      simp [TargetLog.record]
    · rw [targets, moved, regroup, List.drop_left' front]
      simpa [TargetLog.record] using (List.rotate_perm _ 1).trans agree.back_perm

theorem addDefaultTarget_agrees {l : Ledger} {log : TargetLog} (agree : Agrees l log) (name : String) :
    Agrees (l.addDefaultTarget name) (log.record (.addDefaultTarget name)) := by
  by_cases empty : log.unquoted = [] ∧ log.quoted = []
  · have noTargets : l.targets = [] := agree.targets_eq_nil_iff.mpr empty
    by_cases stdin : name = ""
    · have ledger : l.addDefaultTarget name = { l with targets := ["-"] } := by
        simp [addDefaultTarget, noTargets, stdin]
      have logged : log.record (.addDefaultTarget name) = { log with quoted := ["-"] } := by
        simp [TargetLog.record, empty, stdin]
      have zero : l.quoteLwm = 0 := by rw [agree.mark_eq, empty.1, List.length_nil]
      rw [ledger, logged]
      exact ⟨agree.vpath_eq, agree.mark_eq, by simp [zero, empty.1], by simp [zero]⟩
    · -- A derived name goes through the quoted add, vpath rules included.
      have ledger : l.addDefaultTarget name = l.addTarget (objectName name) true := by
        simp [addDefaultTarget, noTargets, stdin]
      have logged : log.record (.addDefaultTarget name) =
          log.record (.addTarget (objectName name) true) := by
        simp [TargetLog.record, empty, stdin]
      rw [ledger, logged]
      exact addTarget_agrees agree _ true
  · have someTarget : l.targets ≠ [] := fun none => empty (agree.targets_eq_nil_iff.mp none)
    have ledger : l.addDefaultTarget name = l := by simp [addDefaultTarget, someTarget]
    have logged : log.record (.addDefaultTarget name) = log := by simp [TargetLog.record, empty]
    rw [ledger, logged]
    exact agree

-- One call keeps ledger and log in agreement; the calls that touch neither
-- targets nor vpath rules change the ledger by a frame only.
theorem step_agrees {l : Ledger} {log : TargetLog} (agree : Agrees l log) (op : Op) :
    Agrees (l.step op) (log.record op) := by
  cases op with
  | addTarget name quote => exact addTarget_agrees agree name quote
  | addDefaultTarget name => exact addDefaultTarget_agrees agree name
  | addDependency path =>
    simp only [step, TargetLog.record]
    split
    · rename_i l' added
      exact agree.of_sameTargets (addDependency_sameTargets added)
    · exact agree
  | addVpath spec =>
    exact ⟨by simp [step, addVpath, TargetLog.record, agree.vpath_eq], agree.mark_eq, agree.front_eq,
      agree.back_perm⟩
  | addModuleTarget name cmi isHeaderUnit =>
    simp only [step, TargetLog.record]
    split
    · rename_i l' added
      exact agree.of_sameTargets (addModuleTarget_sameTargets added)
    · exact agree
  | addModuleDep name => exact ⟨agree.vpath_eq, agree.mark_eq, agree.front_eq, agree.back_perm⟩
  | clear => exact Agrees.empty
  | restore bytes self => exact agree.of_sameTargets (restore_sameTargets l bytes self)

theorem run_agrees {l : Ledger} {log : TargetLog} (agree : Agrees l log) (ops : List Op) :
    Agrees (run l ops) (log.replay ops) := by
  induction ops generalizing l log with
  | nil => exact agree
  | cons op rest ih => exact ih (step_agrees agree op)

end Provenance.Ledger

namespace Provenance

open Ledger

-- After any run from the empty ledger the mark lies within the targets, so the
-- slot an unquoted add swaps with exists; it splits the targets into the
-- unquoted names in call order and a permutation of the quoted names.
theorem quote_lwm_splits_targets (ops : List Op) :
    (run {} ops).quoteLwm ≤ (run {} ops).targets.length ∧
    ((run {} ops).quoteLwm ≠ (run {} ops).targets.length →
      ∃ moved, (run {} ops).targets[(run {} ops).quoteLwm]? = some moved) ∧
    (run {} ops).targets.take (run {} ops).quoteLwm = (TargetLog.replay {} ops).unquoted ∧
    ((run {} ops).targets.drop (run {} ops).quoteLwm).Perm (TargetLog.replay {} ops).quoted ∧
    (run {} ops).targets.Perm ((TargetLog.replay {} ops).unquoted ++ (TargetLog.replay {} ops).quoted) ∧
    ∀ i, (run {} ops).isQuoted i = true ↔ (TargetLog.replay {} ops).unquoted.length ≤ i := by
  have agree := run_agrees Agrees.empty ops
  have bounded := agree.mark_le
  refine ⟨bounded, ?inRange, agree.front_eq, agree.back_perm, ?kept, ?flags⟩
  case inRange =>
    intro notEnd
    exact ⟨_, List.getElem?_eq_getElem (by omega)⟩
  case kept =>
    rw [← List.take_append_drop (run {} ops).quoteLwm (run {} ops).targets, agree.front_eq]
    exact agree.back_perm.append_left _
  case flags =>
    intro i
    simp [isQuoted, agree.mark_eq]

end Provenance
