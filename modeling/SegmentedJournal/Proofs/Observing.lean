import SegmentedJournal.Journal.Frontier
import SegmentedJournal.Proofs.Calls
/-!
# Actions that only look

An action that observes a medium (`Medium.Observes`) may use up failures, be counted and warn, but
however it ends, by a crash too, the medium is untouched (`Medium.Untouched`): every file holds
what it held, and no file was asked to be made, removed or renamed.  A probe is such an action
(`Journal.observes_probe`).
-/

namespace SegmentedJournal

namespace Medium

variable {ε ε' α β : Type} {a b c : Medium Memory} {x : Action ε (Medium Memory) α}

/-- Every file holds what it held, and none was asked to be made, removed or renamed. -/
structure Untouched (before after : Medium Memory) : Prop where
  /-- The files are as before. -/
  files_eq : after.storage.files = before.storage.files
  /-- No file was asked to be made. -/
  created_eq : after.counters.created = before.counters.created
  /-- No file was asked to be removed. -/
  deleted_eq : after.counters.deleted = before.counters.deleted
  /-- No file was asked to be renamed. -/
  renamed_eq : after.counters.renamed = before.counters.renamed

theorem Untouched.refl (a : Medium Memory) : Untouched a a := ⟨rfl, rfl, rfl, rfl⟩

theorem Untouched.trans (h : Untouched a b) (h' : Untouched b c) : Untouched a c :=
  ⟨h'.1.trans h.1, h'.2.trans h.2, h'.3.trans h.3, h'.4.trans h.4⟩

/-- However the action ends, the medium is untouched. -/
def Observes (x : Action ε (Medium Memory) α) : Prop :=
  ∀ medium, Untouched medium (x.leaves medium)

theorem Observes.ends (hx : Observes x) (medium : Medium Memory) :
    x.Ends medium (fun _ after => Untouched medium after) (fun _ after => Untouched medium after)
      True := by
  have h := hx medium
  unfold Action.leaves at h
  unfold Action.Ends
  cases hrun : x medium with
  | ok value after => rwa [hrun] at h
  | error e after =>
      cases e with
      | error e => rwa [hrun] at h
      | crash c => trivial

/-! ### The combinators -/

theorem observes_pure (value : α) : Observes (pure value : Action ε (Medium Memory) α) := .refl

theorem observes_fail (e : ε) : Observes (Action.fail e : Action ε (Medium Memory) α) := .refl

theorem observes_crash (c : Crash) : Observes (Action.crash c : Action ε (Medium Memory) α) :=
  .refl

theorem observes_ofExcept (value : Except ε α) :
    Observes (Action.ofExcept value : Action ε (Medium Memory) α) := by
  cases value <;> exact .refl

theorem Observes.bind {f : α → Action ε (Medium Memory) β} (hx : Observes x)
    (hf : ∀ value, Observes (f value)) : Observes (x >>= f) := by
  intro medium
  have h := hx medium
  rw [Action.leaves_bind]
  unfold Action.leaves at h
  cases hrun : x medium with
  | ok value after =>
      rw [hrun] at h
      exact h.trans (hf value after)
  | error e after =>
      rw [hrun] at h
      exact h

theorem Observes.mapError (hx : Observes x) (f : ε → ε') : Observes (x.mapError f) := by
  intro medium
  have h := hx medium
  unfold Action.leaves at *
  unfold Action.mapError
  cases hrun : x medium with
  | ok value after => rwa [hrun] at h
  | error e after => cases e <;> rwa [hrun] at h

theorem Observes.ite {p : Prop} [Decidable p] {y : Action ε (Medium Memory) α}
    (hx : Observes x) (hy : Observes y) : Observes (if p then x else y) := by
  split
  · exact hx
  · exact hy

/-- An action that some condition puts another one before. -/
theorem Observes.preceded {p : Prop} [Decidable p] {y : Action ε (Medium Memory) β}
    (hx : Observes x) (hy : Observes y) : Observes (if p then x >>= fun _ => y else y) :=
  (hx.bind fun _ => hy).ite hy

/-! ### Calls -/

/-- What is counted may be anything but the files that are made, removed or renamed. -/
theorem Observes.counted {count : Counters → Counters} (hx : Observes x)
    (hcount : ∀ counters, (count counters).created = counters.created ∧
      (count counters).deleted = counters.deleted ∧
      (count counters).renamed = counters.renamed) :
    Observes (Medium.counted count x) := by
  intro medium
  have h := hx medium
  unfold Action.leaves at *
  unfold Medium.counted
  cases hrun : x medium with
  | ok value after =>
      rw [hrun] at h
      obtain ⟨hcreated, hdeleted, hrenamed⟩ := hcount after.counters
      exact ⟨h.1, hcreated.trans h.2, hdeleted.trans h.3, hrenamed.trans h.4⟩
  | error e after =>
      rw [hrun] at h
      obtain ⟨hcreated, hdeleted, hrenamed⟩ := hcount after.counters
      cases e with
      | error e => exact ⟨h.1, hcreated.trans h.2, hdeleted.trans h.3, hrenamed.trans h.4⟩
      | crash c => exact h

theorem observes_consult (call : Call) :
    Observes (consult call : Action ε (Medium Memory) (Option CallFault)) :=
  fun _ => ⟨rfl, rfl, rfl, rfl⟩

theorem observes_warn (warning : Warning) :
    Observes (warn warning : Action ε (Medium Memory) Unit) :=
  fun _ => ⟨rfl, rfl, rfl, rfl⟩

theorem observes_guarded (call : Call) (name : String) :
    Observes (guarded call name : Action MediumError (Medium Memory) Unit) :=
  (observes_consult call).bind fun _ => (observes_fail _).ite (observes_pure ())

theorem observes_list (directory : String) :
    Observes (list directory : Action MediumError (Medium Memory) (List String)) := by
  refine Observes.counted ((observes_consult .crash).bind fun crash => ?_)
    fun _ => ⟨rfl, rfl, rfl⟩
  refine (observes_crash _).preceded ?_
  refine (observes_guarded .list "list").bind fun _ => ?_
  refine Observes.bind (fun _ => .refl _) fun names => ?_
  refine (observes_consult .ghost).bind fun ghost => ?_
  cases ghost <;> exact observes_pure _

theorem observes_openRead (path : String) :
    Observes (openRead path : Action MediumError (Medium Memory) (Except IoError Bytes)) := by
  refine Observes.counted ((observes_guarded .openRead "open").bind fun _ => ?_)
    fun _ => ⟨rfl, rfl, rfl⟩
  refine Observes.bind ?_ fun contents => (observes_consult .read).bind fun fired => ?_
  · intro medium
    simp only [Action.leaves, onStorage, Action.zoom, Action.ofEStateM, Storage.openRead,
      Memory.openRead]
    cases medium.storage.files.get? path <;> exact .refl medium
  · exact (observes_pure _).ite (observes_pure _)

end Medium

/-! ### Probing -/

namespace Journal

open Medium (Observes)

theorem observes_listSegments (journal : Journal) (kind : SegmentKind) :
    Observes (journal.listSegments kind : Action JournalError (Medium Memory) (List Segment)) :=
  ((Medium.observes_list _).mapError _).bind fun _ => Medium.observes_pure _

theorem observes_snapshot (journal : Journal) :
    Observes (journal.snapshot : Action JournalError (Medium Memory) Snapshot) := by
  refine (observes_listSegments journal .checkpoint).bind fun checkpoints => ?_
  refine (observes_listSegments journal .log).bind fun logs => ?_
  refine (Medium.observes_ofExcept _).bind fun snapshot => ?_
  exact ((Medium.observes_pure _).ite
    ((Medium.observes_warn _).bind fun _ => Medium.observes_pure _))

theorem observes_scan (segment : Segment) :
    Observes (scan segment : Action JournalError (Medium Memory) (Option UInt64)) := by
  refine Observes.bind ?_ fun reader => Medium.observes_pure _
  refine ((Medium.observes_openRead _).mapError _).bind fun contents => ?_
  exact (Medium.observes_ofExcept _).bind fun data => Medium.observes_pure _

/-- A probe leaves the medium untouched. -/
theorem observes_probe (journal : Journal) :
    Observes (journal.probe : Action JournalError (Medium Memory) Frontier) := by
  refine (observes_snapshot journal).bind fun snapshot => ?_
  cases snapshot.current with
  | none => exact Medium.observes_pure _
  | some current => exact (observes_scan current).bind fun _ => Medium.observes_pure _

end Journal

end SegmentedJournal
