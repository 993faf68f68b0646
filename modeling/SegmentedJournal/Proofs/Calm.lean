import SegmentedJournal.Proofs.Recovery
/-!
# Media whose calls do not fail

A medium is calm (`Medium.Calm`) if no failure is armed for its calls; its storage may still have
failures waiting, and only an operation that reaches the storage can meet them.  What only looks
then says what the files say: a snapshot is `Journal.snapshotOf`, a probe `Journal.frontierOf`, and
opening a segment fails just where its file is gone.  It leaves the storage as it was, down to the
failures that wait there (`Medium.Noted`).
-/

namespace SegmentedJournal

namespace Medium

/-- No failure is armed for calls. -/
def Calm (medium : Medium Memory) : Prop :=
  medium.callFaults = []

/-- Only counters and warnings changed. -/
structure Noted (before after : Medium Memory) : Prop where
  /-- The storage is as before. -/
  storage_eq : after.storage = before.storage
  /-- So are the failures armed for calls. -/
  callFaults_eq : after.callFaults = before.callFaults

variable {ε α : Type} {a b c : Medium Memory} {counters : Counters} {warnings : List Warning}
  {path directory : String}

theorem Noted.refl (a : Medium Memory) : Noted a a := ⟨rfl, rfl⟩

theorem Noted.trans (h : Noted a b) (h' : Noted b c) : Noted a c :=
  ⟨h'.1.trans h.1, h'.2.trans h.2⟩

theorem Noted.calm (h : Noted a b) (ha : a.Calm) : b.Calm :=
  h.callFaults_eq.trans ha

theorem Noted.files_eq (h : Noted a b) : b.storage.files = a.storage.files :=
  congrArg Memory.files h.storage_eq

theorem noted_warnings (a : Medium Memory) (warnings : List Warning) :
    Noted a { a with warnings } := ⟨rfl, rfl⟩

@[simp] theorem noted_counters : Noted a { b with counters } ↔ Noted a b :=
  ⟨fun h => ⟨h.1, h.2⟩, fun h => ⟨h.1, h.2⟩⟩

namespace Calm

theorem ensures_consult (h : a.Calm) (call : Call) (Q : Option CallFault → Medium Memory → Prop)
    (E : ε → Medium Memory → Prop) :
    (consult call : Action ε (Medium Memory) (Option CallFault)).Ensures a Q E ↔ Q none a := by
  obtain ⟨storage, callFaults, counters, warnings⟩ := a
  obtain rfl : callFaults = [] := h
  rfl

theorem ensures_guarded (h : a.Calm) (call : Call) (name : String)
    (Q : Unit → Medium Memory → Prop) (E : MediumError → Medium Memory → Prop) :
    (guarded call name).Ensures a Q E ↔ Q () a := by
  rw [guarded, Action.ensures_bind, h.ensures_consult]
  rfl

theorem ensures_list (h : a.Calm) (directory : String) :
    (list directory).Ensures a
      (fun names b => names = a.storage.files.paths.filterMap (Path.child? directory) ∧ Noted a b)
      (fun _ _ => False) := by
  simp only [list, ensures_counted, Action.ensures_bind, h.ensures_consult, h.ensures_guarded,
    Option.isSome_none, Bool.false_eq_true, if_false, noted_counters]
  rw [ensures_onStorage]
  refine (h.ensures_consult .ghost _ _).2 ⟨?_, .refl a⟩
  exact Memory.childrenOf_eq directory a.storage

theorem ensures_openRead (h : a.Calm) (path : String) :
    (openRead path).Ensures a
      (fun result b => (∃ contents, a.storage.files.get? path = some contents ∧
        result = .ok contents) ∧ Noted a b)
      (fun e b => a.storage.files.get? path = none ∧ e = .notFound path ∧ Noted a b) := by
  simp only [openRead, ensures_counted, Action.ensures_bind, h.ensures_guarded, ensures_onStorage,
    Storage.openRead, Memory.openRead, noted_counters]
  cases hget : a.storage.files.get? path with
  | none => exact ⟨rfl, rfl, .refl a⟩
  | some contents =>
    dsimp only
    rw [h.ensures_consult]
    exact ⟨⟨contents, rfl, rfl⟩, .refl a⟩

end Calm

end Medium

/-! ### What only looks -/

open Medium (Noted)

namespace Journal

variable {journal : Journal} {medium : Medium Memory}

theorem ensures_listSegments_of_calm (journal : Journal) (kind : SegmentKind)
    (hcalm : medium.Calm) :
    (journal.listSegments kind).Ensures medium
      (fun segments after => segments = journal.segmentsIn kind medium.storage.files ∧
        Noted medium after)
      (fun _ _ => False) := by
  rw [listSegments, Action.ensures_bind, listDir, Action.ensures_mapError]
  refine (hcalm.ensures_list _).mono ?_ (fun _ _ h => h)
  rintro names after ⟨rfl, hnoted⟩
  exact ⟨rfl, hnoted⟩

/-- A snapshot says what the files say. -/
theorem ensures_snapshot_of_calm (journal : Journal) (hcalm : medium.Calm) :
    journal.snapshot.Ensures medium
      (fun snapshot after => journal.snapshotOf medium.storage.files = .ok snapshot ∧
        Noted medium after)
      (fun e after => journal.snapshotOf medium.storage.files = .error e ∧ Noted medium after) := by
  rw [snapshot_eq, Action.ensures_bind]
  refine (ensures_listSegments_of_calm journal .checkpoint hcalm).mono ?_ (fun _ _ h => h.elim)
  rintro _ middle ⟨rfl, hnoted⟩
  rw [snapshotFrom, Action.ensures_bind]
  refine (ensures_listSegments_of_calm journal .log (hnoted.calm hcalm)).mono ?_
    (fun _ _ h => h.elim)
  rintro _ after ⟨rfl, hnoted'⟩
  have hnoted := hnoted.trans hnoted'
  rw [hnoted'.files_eq.symm.trans hnoted.files_eq, Action.ensures_bind, Action.ensures_ofExcept]
  refine ⟨fun snapshot hsnapshot => ?_, fun e he => ⟨he, hnoted⟩⟩
  dsimp only
  rw [Action.ensures_ite]
  refine ⟨fun _ => ⟨hsnapshot, hnoted⟩, fun _ => ?_⟩
  rw [Action.ensures_bind, Medium.ensures_warn]
  exact ⟨hsnapshot, hnoted.trans (Medium.noted_warnings ..)⟩

end Journal

namespace SegmentReader

variable {medium : Medium Memory}

/-- A segment can be opened just where its file is there. -/
theorem ensures_load_of_calm (segment : Segment) (hcalm : medium.Calm) :
    (load segment).Ensures medium
      (fun reader after => (∃ contents, medium.storage.files.get? segment.location =
        some contents ∧ reader = { segment, rest := contents }) ∧ Noted medium after)
      (fun e after => medium.storage.files.get? segment.location = none ∧
        e = .medium segment.location (.notFound segment.location) ∧ Noted medium after) := by
  rw [load, Action.ensures_bind, Action.ensures_mapError]
  refine (hcalm.ensures_openRead _).mono ?_ ?_
  · rintro _ after ⟨⟨contents, hget, rfl⟩, hnoted⟩
    exact ⟨⟨contents, hget, rfl⟩, hnoted⟩
  · rintro _ after ⟨hnone, rfl, hnoted⟩
    exact ⟨hnone, rfl, hnoted⟩

end SegmentReader

namespace Journal

variable {medium : Medium Memory}

/-- A probe finds what the files say. -/
theorem ensures_probe_of_calm (journal : Journal) (hcalm : medium.Calm) :
    journal.probe.Ensures medium
      (fun frontier after => journal.frontierOf medium.storage.files = .ok frontier ∧
        Noted medium after)
      (fun e after => journal.frontierOf medium.storage.files = .error e ∧ Noted medium after) := by
  rw [probe, Action.ensures_bind]
  refine (ensures_snapshot_of_calm journal hcalm).mono ?_ ?_
  · rintro ⟨checkpoints, complete, current⟩ middle ⟨hsnapshot, hnoted⟩
    cases current with
    | none => exact ⟨frontierOf_of_none hsnapshot rfl, hnoted⟩
    | some log =>
      obtain ⟨hhas, -⟩ := (lists_of_snapshotOf_eq hsnapshot).has_current
      obtain ⟨contents, hget⟩ := Option.isSome_iff_exists.1 hhas.present
      simp only [scan, Action.ensures_bind]
      refine (SegmentReader.ensures_load_of_calm log (hnoted.calm hcalm)).mono ?_ ?_
      · rintro _ after ⟨⟨found, hfound, rfl⟩, hnoted'⟩
        rw [hnoted.files_eq] at hfound
        exact ⟨frontierOf_of_some hsnapshot rfl hfound, hnoted.trans hnoted'⟩
      · rintro _ after ⟨hnone, -⟩
        rw [hnoted.files_eq, hget] at hnone
        cases hnone
  · rintro e after ⟨herror, hnoted⟩
    refine ⟨?_, hnoted⟩
    rw [frontierOf, herror]
    rfl

end Journal

end SegmentedJournal
